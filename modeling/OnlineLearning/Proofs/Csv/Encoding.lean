import OnlineLearning.Csv

/-!
# Records in files

A file takes characters only. It takes a table in full exactly if no field holds a half of a pair
(`fault?_fileText_iff`), and what it then holds is the table (`fileText_eq`).
-/

namespace OnlineLearning

namespace CodePoints

/-- Whether a text has characters only. -/
def Plain (s : CodePoints) : Prop := ∀ p ∈ s, p.isHalf = false

instance (s : CodePoints) : Decidable s.Plain := inferInstanceAs (Decidable (∀ p ∈ s, p.isHalf = false))

theorem plain_ofChars (cs : List Char) : Plain (ofChars cs) := List.forall_mem_map.mpr fun _ _ => rfl

theorem plain_append_iff {s t : CodePoints} : Plain (s ++ t) ↔ Plain s ∧ Plain t := List.forall_mem_append

theorem plain_iff_chars? {s : CodePoints} : s.Plain ↔ s.chars? ≠ none := by
  constructor
  · intro h
    induction s with
    | nil => exact Option.some_ne_none _
    | cons p s ih =>
      obtain ⟨hp, hs⟩ := List.forall_mem_cons.mp h
      cases p with
      | char c =>
        rw [chars?, ne_eq, Option.map_eq_none_iff]
        exact ih hs
      | half i => cases hp
  · intro h
    obtain ⟨cs, hcs⟩ := Option.ne_none_iff_exists'.mp h
    exact chars?_eq_some_iff.mp hcs ▸ plain_ofChars cs

end CodePoints

namespace Csv
open CodePoints

/-! ### Characters of records -/

theorem mem_escape_iff {s : CodePoints} {p : CodePoint} : p ∈ escape s ↔ p ∈ s := by
  rw [escape, List.mem_flatMap]
  constructor
  · rintro ⟨q, hq, hp⟩
    split at hp
    · rename_i hquote
      simp only [List.mem_cons, List.not_mem_nil, or_false, or_self] at hp
      rwa [hp, ← hquote]
    · rwa [List.mem_singleton.mp hp]
  · intro hp
    refine ⟨p, hp, ?_⟩
    split
    · rename_i hquote
      exact hquote ▸ List.mem_cons_self ..
    · exact List.mem_singleton_self p

theorem plain_enclosed_iff {s : CodePoints} : Plain (enclosed s) ↔ Plain s := by
  have hescape : Plain (escape s) ↔ Plain s := by simp only [Plain, mem_escape_iff]
  rw [enclosed, ← List.singleton_append, plain_append_iff, plain_append_iff, hescape]
  exact ⟨fun h => h.1.2, fun h => ⟨⟨plain_ofChars ['"'], h⟩, plain_ofChars ['"']⟩⟩

theorem plain_field_iff {s : CodePoints} : Plain (field s) ↔ Plain s := by
  unfold field
  split
  · exact plain_enclosed_iff
  · rfl

theorem plain_recordEnd : Plain recordEnd := plain_ofChars ['\r', '\n']

theorem plain_fields_iff {ss : List CodePoints} : Plain (fields ss) ↔ ∀ s ∈ ss, Plain s := by
  fun_induction fields ss with
  | case1 => exact ⟨fun _ => List.forall_mem_nil _, fun _ => plain_recordEnd⟩
  | case2 s =>
    rw [plain_append_iff, plain_field_iff, List.forall_mem_singleton]
    exact and_iff_left plain_recordEnd
  | case3 s rest _ ih =>
    rw [plain_append_iff, plain_field_iff, List.forall_mem_cons, ← ih, ← List.singleton_append, plain_append_iff]
    exact and_congr_right fun _ => and_iff_right (plain_ofChars [','])

theorem plain_record_iff {ss : List CodePoints} : Plain (record ss) ↔ ∀ s ∈ ss, Plain s := by
  unfold record
  split
  · rw [plain_append_iff, plain_enclosed_iff, List.forall_mem_singleton]
    exact and_iff_left plain_recordEnd
  · exact plain_fields_iff

/-! ### Lines of a file -/

theorem encode_eq_ok_iff {line : CodePoints} {cs : List Char} : encode line = .ok cs ↔ line = ofChars cs := by
  rw [← chars?_eq_some_iff, encode]
  cases line.chars? with
  | none => exact iff_of_false nofun nofun
  | some _ => simp

theorem encodeLines_eq {lines : List CodePoints} (h : (encodeLines lines).2 = none) :
    ofChars (encodeLines lines).1 = lines.flatten := by
  induction lines with
  | nil => rfl
  | cons line lines ih =>
    rw [encodeLines] at h ⊢
    cases hline : encode line with
    | error e =>
      rw [hline] at h
      cases h
    | ok cs =>
      rw [hline] at h
      show ofChars (cs ++ (encodeLines lines).1) = line ++ lines.flatten
      rw [encode_eq_ok_iff.mp hline, ← ih h]
      exact List.map_append

theorem fault?_encodeLines_iff {lines : List CodePoints} :
    (encodeLines lines).2 = none ↔ ∀ line ∈ lines, Plain line := by
  induction lines with
  | nil => exact ⟨fun _ => List.forall_mem_nil _, fun _ => rfl⟩
  | cons line lines ih =>
    rw [List.forall_mem_cons, ← ih, encodeLines, plain_iff_chars?, encode]
    cases line.chars? with
    | none => simp
    | some cs => simp

variable {rs : List (List CodePoints)}

theorem fault?_fileText_iff : (fileText rs).2 = none ↔ ∀ ss ∈ rs, ∀ s ∈ ss, Plain s := by
  rw [fileText, fault?_encodeLines_iff, List.forall_mem_map]
  exact forall₂_congr fun ss _ => plain_record_iff

theorem fileText_eq (h : (fileText rs).2 = none) : ((fileText rs).1 : CodePoints) = table rs := by
  rw [fileText, String.toList_ofList, encodeLines_eq h, table, List.flatMap_def]

end Csv

end OnlineLearning
