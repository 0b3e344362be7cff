import OnlineLearning.Text.Line

/-!
# Lines that are put together again

The lines of a text have their line feed at the end and nowhere else, but for the last, which may
have none. Lines of that shape are found again in the text that they make up, and they keep it when
some of them are left out: `lines_flatten_filter`.
-/

namespace OnlineLearning.Text
variable {cs line : List Char} {ls : List (List Char)}

/-- A line without its end: no character of it breaks a line. -/
def Unbroken (cs : List Char) : Prop := '\n' ∉ cs ∧ '\r' ∉ cs

/-- Lines as a text has them. -/
inductive Lined : List (List Char) → Prop where
  | nil : Lined []
  | last {line : List Char} (h : Unbroken line) (hne : line ≠ []) : Lined [line]
  | cons {line : List Char} {ls : List (List Char)} (h : Unbroken line) (hls : Lined ls) :
      Lined ((line ++ ['\n']) :: ls)

theorem Unbroken.nil : Unbroken [] := ⟨List.not_mem_nil, List.not_mem_nil⟩

theorem Unbroken.cons {c : Char} (hn : c ≠ '\n') (hr : c ≠ '\r') (h : Unbroken cs) : Unbroken (c :: cs) := by
  refine ⟨?_, ?_⟩
  · simpa [Ne.symm hn] using h.1
  · simpa [Ne.symm hr] using h.2

theorem Unbroken.append {cs' : List Char} (h : Unbroken cs) (h' : Unbroken cs') : Unbroken (cs ++ cs') := by
  refine ⟨?_, ?_⟩
  · simpa using ⟨h.1, h'.1⟩
  · simpa using ⟨h.2, h'.2⟩

theorem Lined.pushFront {c : Char} (hr : c ≠ '\r') (h : Lined ls) : Lined (pushFront c ls) := by
  unfold Text.pushFront
  split
  · rename_i hn
    subst hn
    exact .cons .nil h
  · rename_i hn
    cases h with
    | nil => exact .last (Unbroken.nil.cons hn hr) (by simp)
    | last hline hne => exact .last (hline.cons hn hr) (by simp)
    | cons hline hls => exact .cons (hline.cons hn hr) hls

theorem not_mem_unifyBreaks (cs : List Char) : '\r' ∉ unifyBreaks cs := by
  unfold unifyBreaks
  induction cs with
  | nil => simp
  | cons c cs ih =>
    rw [List.foldr_cons]
    dsimp only
    split
    · split
      · exact ih
      · simpa using ih
    · rename_i hc
      simpa [Ne.symm hc] using ih

theorem unifyBreaks_of_not_mem (h : '\r' ∉ cs) : unifyBreaks cs = cs := by
  unfold unifyBreaks
  induction cs with
  | nil => rfl
  | cons c cs ih =>
    obtain ⟨hc, hcs⟩ : '\r' ≠ c ∧ '\r' ∉ cs := by simpa using h
    rw [List.foldr_cons]
    dsimp only
    rw [if_neg (Ne.symm hc), ih hcs]

theorem lined_foldr (h : '\r' ∉ cs) : Lined (cs.foldr pushFront []) := by
  induction cs with
  | nil => exact .nil
  | cons c cs ih =>
    obtain ⟨hc, hcs⟩ : '\r' ≠ c ∧ '\r' ∉ cs := by simpa using h
    exact (ih hcs).pushFront (Ne.symm hc)

theorem lined_lines (cs : List Char) : Lined (lines cs) := lined_foldr (not_mem_unifyBreaks cs)

theorem Lined.filter (keep : List Char → Bool) (h : Lined ls) : Lined (ls.filter keep) := by
  induction h with
  | nil => exact .nil
  | last hline hne =>
    rw [List.filter_cons]
    split
    · exact .last hline hne
    · exact .nil
  | cons hline _ ih =>
    rw [List.filter_cons]
    split
    · exact .cons hline ih
    · exact ih

theorem Lined.not_mem (h : Lined ls) : '\r' ∉ ls.flatten := by
  induction h with
  | nil => simp
  | last hline hne => simpa using hline.2
  | cons hline _ ih =>
    simp only [List.flatten_cons, List.mem_append, List.mem_singleton, not_or]
    exact ⟨⟨hline.2, by decide⟩, ih⟩

theorem foldr_pushFront_line (h : '\n' ∉ line) (rest : List Char) :
    (line ++ '\n' :: rest).foldr pushFront [] = (line ++ ['\n']) :: rest.foldr pushFront [] := by
  induction line with
  | nil => rfl
  | cons c line ih =>
    obtain ⟨hc, hline⟩ : '\n' ≠ c ∧ '\n' ∉ line := by simpa using h
    rw [List.cons_append, List.foldr_cons, ih hline, pushFront, if_neg (Ne.symm hc)]
    rfl

theorem foldr_pushFront_last (h : '\n' ∉ line) (hne : line ≠ []) : line.foldr pushFront [] = [line] := by
  induction line with
  | nil => exact absurd rfl hne
  | cons c line ih =>
    obtain ⟨hc, hline⟩ : '\n' ≠ c ∧ '\n' ∉ line := by simpa using h
    by_cases hnil : line = []
    · subst hnil
      exact if_neg (Ne.symm hc)
    · rw [List.foldr_cons, ih hline hnil, pushFront, if_neg (Ne.symm hc)]

theorem Lined.foldr_flatten (h : Lined ls) : ls.flatten.foldr Text.pushFront [] = ls := by
  induction h with
  | nil => rfl
  | last hline hne => rw [List.flatten_singleton, foldr_pushFront_last hline.1 hne]
  | cons hline _ ih =>
    rw [List.flatten_cons, List.append_assoc, List.singleton_append, foldr_pushFront_line hline.1, ih]

theorem lined_map (h : ∀ line ∈ ls, Unbroken line) : Lined (ls.map (· ++ ['\n'])) := by
  induction ls with
  | nil => exact .nil
  | cons line ls ih =>
    obtain ⟨hline, hls⟩ := List.forall_mem_cons.mp h
    exact .cons hline (ih hls)

theorem flatMap_two_lines (line line' : List Char) (ls : List (List Char)) :
    ((line :: line' :: ls).flatMap fun line => line ++ ['\n']) =
      line ++ '\n' :: line' ++ '\n' :: ls.flatMap fun line => line ++ ['\n'] := by
  simp

/-- Lines that are written one after another are the lines of what was written. -/
theorem lines_flatMap (h : ∀ line ∈ ls, Unbroken line) :
    lines (ls.flatMap fun line => line ++ ['\n']) = ls.map (· ++ ['\n']) := by
  have hlined := lined_map h
  rw [List.flatMap_def, lines, unifyBreaks_of_not_mem hlined.not_mem, hlined.foldr_flatten]

/-! ### Texts in a row -/

theorem unifyBreaks_cons (c : Char) (cs : List Char) : unifyBreaks (c :: cs) =
    if c = '\r' then if cs.head? = some '\n' then unifyBreaks cs else '\n' :: unifyBreaks cs
    else c :: unifyBreaks cs := by
  cases cs <;> rfl

theorem length_unifyBreaks_le (cs : List Char) : (unifyBreaks cs).length ≤ cs.length := by
  induction cs with
  | nil => exact Nat.le_refl 0
  | cons c cs ih =>
    rw [unifyBreaks_cons]
    split
    · split
      · exact Nat.le_succ_of_le ih
      · exact Nat.succ_le_succ ih
    · exact Nat.succ_le_succ ih

theorem length_le_of_mem_lines (h : line ∈ lines cs) : line.length ≤ cs.length := by
  have hflatten : line.length ≤ (lines cs).flatten.length := (List.sublist_flatten_of_mem h).length_le
  rw [flatten_lines] at hflatten
  exact Nat.le_trans hflatten (length_unifyBreaks_le cs)

/-- What stands before a line feed is unified without a look at what follows. -/
theorem exists_unifyBreaks_append (cs : List Char) :
    ∃ us, ∀ rest, unifyBreaks (cs ++ '\n' :: rest) = us ++ '\n' :: unifyBreaks rest := by
  induction cs with
  | nil => exact ⟨[], fun rest => unifyBreaks_cons '\n' rest⟩
  | cons c cs ih =>
    obtain ⟨us, hus⟩ := ih
    have hhead : ∀ rest, (cs ++ '\n' :: rest).head? = (cs ++ ['\n']).head? := by
      intro rest
      cases cs <;> rfl
    refine ⟨if c = '\r' then if (cs ++ ['\n']).head? = some '\n' then us else '\n' :: us else c :: us, fun rest => ?_⟩
    rw [List.cons_append, unifyBreaks_cons, hhead, hus]
    split
    · split <;> rfl
    · rfl

theorem pushFront_append (c : Char) (hne : ls ≠ []) (ls' : List (List Char)) :
    pushFront c (ls ++ ls') = pushFront c ls ++ ls' := by
  obtain ⟨line, ls, rfl⟩ := List.exists_cons_of_ne_nil hne
  unfold pushFront
  split <;> rfl

theorem foldr_pushFront_ne_nil (hne : cs ≠ []) : cs.foldr pushFront [] ≠ [] := by
  obtain ⟨c, cs, rfl⟩ := List.exists_cons_of_ne_nil hne
  intro hnil
  have hflatten := flatten_pushFront c (cs.foldr pushFront [])
  rw [show pushFront c (cs.foldr pushFront []) = [] from hnil] at hflatten
  cases hflatten

theorem foldr_pushFront_append (us vs : List Char) :
    (us ++ '\n' :: vs).foldr pushFront [] = (us ++ ['\n']).foldr pushFront [] ++ vs.foldr pushFront [] := by
  induction us with
  | nil => rfl
  | cons c us ih =>
    have hne : (us ++ ['\n']).foldr pushFront [] ≠ [] := foldr_pushFront_ne_nil (by simp)
    rw [List.cons_append, List.cons_append, List.foldr_cons, List.foldr_cons, ih, pushFront_append c hne]

/-- A text that starts after a line feed has lines of its own. -/
theorem lines_append (cs rest : List Char) : lines (cs ++ '\n' :: rest) = lines (cs ++ ['\n']) ++ lines rest := by
  obtain ⟨us, hus⟩ := exists_unifyBreaks_append cs
  rw [lines, lines, lines, hus, hus, foldr_pushFront_append]
  rfl

/-- The lines of a text, some of them left out, are the lines of the text that is left. -/
theorem lines_flatten_filter (keep : List Char → Bool) (cs : List Char) :
    lines ((lines cs).filter keep).flatten = (lines cs).filter keep := by
  have h : Lined ((lines cs).filter keep) := (lined_lines cs).filter keep
  rw [lines, unifyBreaks_of_not_mem h.not_mem, h.foldr_flatten]

end OnlineLearning.Text
