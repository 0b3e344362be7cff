import Mathlib.Tactic.SplitIfs
import OnlineLearning.Csv

/-!
# Records that are read again

What was written as a table is read as the records that it was written from: `records_table`. A reader that
stands before a field has read it in full where the field ends, whatever its characters are, and is then in a
state in which the separator counts (`foldl_field`). Records and tables are inductions on their parts.

A reader with a limit reads the same records as one without, if no field is beyond the limit, and none otherwise
(`read_eq`): the field it is in never gets shorter but by its end (`within_take`).
-/

namespace OnlineLearning.Csv

/-- Whether a reader is at the start of a field. -/
def State.IsStart (s : State) : Prop := s = .recordStart ∨ s = .fieldStart

/-- Whether a separator counts: the reader is not between quotes, nor between the two characters that end a
record. -/
def State.IsOpen (s : State) : Prop := s ≠ .quoted ∧ s ≠ .afterReturn

theorem State.IsStart.isOpen {s : State} (h : s.IsStart) : s.IsOpen := by
  rcases h with rfl | rfl
  · exact ⟨by decide, by decide⟩
  · exact ⟨by decide, by decide⟩

theorem not_special_iff {p : CodePoint} :
    isSpecial p = false ↔ p ≠ .char ',' ∧ p ≠ .char '"' ∧ p ≠ .char '\r' ∧ p ≠ .char '\n' := by
  simp only [isSpecial, Bool.or_eq_false_iff, decide_eq_false_iff_not, ne_eq, and_assoc]

namespace Reading
variable {r : Reading}

theorem take_of_isStart (h : r.state.IsStart) {p : CodePoint} (hreturn : p ≠ .char '\r') (hfeed : p ≠ .char '\n') :
    r.take p = r.takeFirst p := by
  unfold take
  rcases h with h | h <;> rw [h]
  exact (if_neg hreturn).trans (if_neg hfeed)

theorem take_comma (h : r.state.IsOpen) : r.take (.char ',') = r.endField .fieldStart := by
  obtain ⟨hquoted, hreturn⟩ := h
  unfold take
  cases hs : r.state with
  | quoted => exact absurd hs hquoted
  | afterReturn => exact absurd hs hreturn
  | _ => rfl

theorem take_return (h : r.state.IsOpen) (hstart : r.state ≠ .recordStart) :
    r.take (.char '\r') = r.endRecord .afterReturn := by
  obtain ⟨hquoted, hreturn⟩ := h
  unfold take
  cases hs : r.state with
  | recordStart => exact absurd hs hstart
  | quoted => exact absurd hs hquoted
  | afterReturn => exact absurd hs hreturn
  | _ => rfl

theorem foldl_recordEnd (h : r.state.IsOpen) (hstart : r.state ≠ .recordStart) :
    recordEnd.foldl take r =
      { state := .recordStart, records := (r.points.reverse :: r.fields).reverse :: r.records } := by
  rw [recordEnd, List.foldl_cons, take_return h hstart]
  simp [endRecord, closeRecord, endField, take]

/-! ### One field -/

theorem takePlain_of_not_special {p : CodePoint} (h : isSpecial p = false) :
    r.takePlain p = { r with state := .plain, points := p :: r.points } := by
  obtain ⟨hcomma, -, hreturn, hfeed⟩ := not_special_iff.mp h
  rw [takePlain, if_neg hcomma, if_neg hreturn, if_neg hfeed]

theorem foldl_plain {s : CodePoints} (hs : r.state = .plain) (h : ∀ p ∈ s, isSpecial p = false) :
    s.foldl take r = { r with points := s.reverse ++ r.points } := by
  induction s generalizing r with
  | nil => rfl
  | cons p s ih =>
    obtain ⟨hp, htail⟩ := List.forall_mem_cons.mp h
    have htake : r.take p = { r with points := p :: r.points } := by
      rw [take, hs]
      show r.takePlain p = _
      rw [takePlain_of_not_special hp, ← hs]
    rw [List.foldl_cons, htake]
    refine (ih (r := { r with points := p :: r.points }) hs htail).trans ?_
    rw [List.reverse_cons, List.append_assoc, List.singleton_append]

theorem foldl_escape {s : CodePoints} (hs : r.state = .quoted) :
    (escape s).foldl take r = { r with points := s.reverse ++ r.points } := by
  induction s generalizing r with
  | nil => rfl
  | cons p s ih =>
    -- a quote is taken up in two steps, and everything else in one
    have hpoint : (if p = .char '"' then [.char '"', .char '"'] else [p]).foldl take r =
        { r with points := p :: r.points } := by
      split
      · rename_i hp
        have hfirst : r.take (.char '"') = { r with state := .quoteInQuoted } := by
          rw [take, hs]
          rfl
        rw [List.foldl_cons, List.foldl_cons, List.foldl_nil, hp, hfirst, hs]
        rfl
      · rename_i hp
        rw [List.foldl_cons, List.foldl_nil, take, hs]
        exact if_neg hp
    rw [escape, List.flatMap_cons, List.foldl_append, hpoint]
    refine (ih (r := { r with points := p :: r.points }) hs).trans ?_
    rw [List.reverse_cons, List.append_assoc, List.singleton_append]

theorem foldl_enclosed (hs : r.state.IsStart) (hr : r.points = []) (s : CodePoints) :
    (enclosed s).foldl take r = { r with state := .quoteInQuoted, points := s.reverse } := by
  have hopen : r.take (.char '"') = { r with state := .quoted } := by
    rw [take_of_isStart hs (by decide) (by decide)]
    exact if_pos rfl
  rw [enclosed, List.cons_append, List.foldl_cons, hopen, List.foldl_append, foldl_escape rfl]
  simp only [hr, List.append_nil]
  rfl

/-- A reader that has read a field still is at the start of a record only if the field is empty. -/
theorem foldl_field (hs : r.state.IsStart) (hr : r.points = []) (s : CodePoints) :
    ∃ state : State, state.IsOpen ∧ (state = .recordStart → r.state = .recordStart ∧ s = []) ∧
      (field s).foldl take r = { r with state, points := s.reverse } := by
  unfold field
  split
  · exact ⟨.quoteInQuoted, ⟨by decide, by decide⟩, fun h => (by cases h), foldl_enclosed hs hr s⟩
  · rename_i hplain
    cases s with
    | nil =>
      refine ⟨r.state, hs.isOpen, fun h => ⟨h, rfl⟩, ?_⟩
      rw [List.foldl_nil, List.reverse_nil, ← hr]
    | cons p s =>
      have hspecial : ∀ q ∈ p :: s, isSpecial q = false := by simpa using hplain
      obtain ⟨hp, htail⟩ := List.forall_mem_cons.mp hspecial
      obtain ⟨-, hquote, hreturn, hfeed⟩ := not_special_iff.mp hp
      refine ⟨.plain, ⟨by decide, by decide⟩, fun h => (by cases h), ?_⟩
      rw [List.foldl_cons, take_of_isStart hs hreturn hfeed, takeFirst, if_neg hquote, takePlain_of_not_special hp,
        foldl_plain rfl htail, hr, List.reverse_cons]

/-! ### Records and tables -/

theorem foldl_fields (hs : r.state.IsStart) (hr : r.points = []) (s : CodePoints) (rest : List CodePoints)
    (hblank : r.state = .recordStart → s :: rest ≠ [[]]) :
    (Csv.fields (s :: rest)).foldl take r =
      { state := .recordStart, records := (r.fields.reverse ++ s :: rest) :: r.records } := by
  induction rest generalizing r s with
  | nil =>
    obtain ⟨state, hopen, hstart, hfield⟩ := foldl_field hs hr s
    have hstate : state ≠ .recordStart := fun h => hblank (hstart h).1 (by rw [(hstart h).2])
    rw [Csv.fields, List.foldl_append, hfield, foldl_recordEnd hopen hstate]
    simp
  | cons s' rest ih =>
    obtain ⟨state, hopen, -, hfield⟩ := foldl_field hs hr s
    rw [Csv.fields, List.foldl_append, hfield, List.foldl_cons, take_comma hopen]
    · refine (ih (.inr rfl) rfl s' fun h => by cases h).trans ?_
      simp [endField]
    · exact List.cons_ne_nil _ _

theorem foldl_record (ss : List CodePoints) (done : List (List CodePoints)) :
    (record ss).foldl take { records := done } = { records := ss :: done } := by
  match ss with
  | [] => rfl
  | [[]] => rfl
  | (p :: s) :: rest => exact foldl_fields (.inl rfl) rfl (p :: s) rest fun _ h => by cases h
  | [] :: s :: rest => exact foldl_fields (.inl rfl) rfl [] (s :: rest) fun _ h => by cases h

theorem foldl_table (rs done : List (List CodePoints)) :
    (table rs).foldl take { records := done } = { records := rs.reverse ++ done } := by
  induction rs generalizing done with
  | nil => rfl
  | cons ss rs ih =>
    rw [table, List.flatMap_cons, List.foldl_append, foldl_record]
    refine (ih _).trans ?_
    rw [List.reverse_cons, List.append_assoc]
    rfl

end Reading

/-- A table is read again as the records that it was written from. -/
theorem records_table (rs : List (List CodePoints)) : records (table rs) = rs := by
  rw [records, Reading.foldl_table, List.append_nil]
  exact List.reverse_reverse rs

/-- Fields with a separator, with quotes and with a line break, and an only field that is empty. -/
example : let rs : List (List CodePoints) := [["a,b", "\""], [""], [], ["", "c\r\nd"]]; records (table rs) = rs := by
  decide

/-! ### Fields within a limit -/

/-- Whether no field of records is beyond a limit. -/
def Within (limit : Nat) (rs : List (List CodePoints)) : Prop := ∀ ss ∈ rs, ∀ s ∈ ss, s.length ≤ limit

instance (limit : Nat) (rs : List (List CodePoints)) : Decidable (Within limit rs) :=
  inferInstanceAs (Decidable (∀ ss ∈ rs, ∀ s ∈ ss, s.length ≤ limit))

namespace Reading
variable {limit : Nat} {r : Reading}

/-- Whether no field that is read or being read is beyond a limit. -/
def Within (limit : Nat) (r : Reading) : Prop :=
  Csv.Within limit (r.fields :: r.records) ∧ r.points.length ≤ limit

instance (limit : Nat) (r : Reading) : Decidable (r.Within limit) :=
  inferInstanceAs (Decidable (Csv.Within limit (r.fields :: r.records) ∧ r.points.length ≤ limit))

theorem within_endField (next : State) : (r.endField next).Within limit ↔ r.Within limit := by
  simp only [Within, Csv.Within, endField, List.forall_mem_cons, List.length_reverse, List.length_nil, Nat.zero_le,
    and_true]
  rw [and_assoc, and_comm]

theorem within_closeRecord (next : State) : (r.closeRecord next).Within limit ↔ r.Within limit := by
  simp [Within, Csv.Within, closeRecord]

theorem within_endRecord (next : State) : (r.endRecord next).Within limit ↔ r.Within limit :=
  (within_closeRecord next).trans (within_endField next)

theorem Within.iff_and_length : r.Within limit ↔ r.Within limit ∧ r.points.length ≤ limit :=
  (and_iff_left_of_imp And.right).symm

/-- A code point in a field. -/
theorem within_push (p : CodePoint) (state : State) :
    Within limit { r with state, points := p :: r.points } ↔ r.Within limit ∧ (p :: r.points).length ≤ limit := by
  refine ⟨fun ⟨hfields, hpoints⟩ => ⟨⟨hfields, ?_⟩, hpoints⟩, fun ⟨h, hpoints⟩ => ⟨h.1, hpoints⟩⟩
  exact Nat.le_of_succ_le hpoints

theorem within_takePlain (p : CodePoint) :
    (r.takePlain p).Within limit ↔ r.Within limit ∧ (r.takePlain p).points.length ≤ limit := by
  unfold takePlain
  split_ifs
  · rw [Within.iff_and_length, within_endField]
  · rw [Within.iff_and_length, within_endRecord]
  · rw [Within.iff_and_length, within_endRecord]
  · exact within_push p .plain

theorem within_takeFirst (p : CodePoint) :
    (r.takeFirst p).Within limit ↔ r.Within limit ∧ (r.takeFirst p).points.length ≤ limit := by
  unfold takeFirst
  split_ifs
  · exact Within.iff_and_length
  · exact within_takePlain p

theorem within_takeStart (p : CodePoint) :
    (r.takeStart p).Within limit ↔ r.Within limit ∧ (r.takeStart p).points.length ≤ limit := by
  unfold takeStart
  split_ifs
  · rw [Within.iff_and_length, within_closeRecord]
  · rw [Within.iff_and_length, within_closeRecord]
  · exact within_takeFirst p

/-- One more code point leaves everything within a limit if it was and the field it is in is not too long. -/
theorem within_take (p : CodePoint) :
    (r.take p).Within limit ↔ r.Within limit ∧ (r.take p).points.length ≤ limit := by
  unfold take
  split
  · exact within_takeStart p
  · exact within_takeFirst p
  · exact within_takePlain p
  · split_ifs
    · exact Within.iff_and_length
    · exact within_push p _
  · split_ifs
    · exact within_push p .quoted
    · exact within_takePlain p
  · split_ifs
    · exact Within.iff_and_length
    · exact within_takeStart p

theorem within_foldl (text : CodePoints) (h : (text.foldl take r).Within limit) : r.Within limit := by
  induction text generalizing r with
  | nil => exact h
  | cons p text ih => exact ((within_take p).mp (ih h)).1

theorem foldlM_takeWithin (text : CodePoints) (h : r.Within limit) : text.foldlM (takeWithin limit) r =
    if (text.foldl take r).Within limit then .ok (text.foldl take r) else .error ⟨limit⟩ := by
  induction text generalizing r with
  | nil => exact (if_pos h).symm
  | cons p text ih =>
    rw [List.foldlM_cons, List.foldl_cons, takeWithin]
    split_ifs with hlong hwithin
    · have hlength := (within_take p).mp (within_foldl text hwithin)
      omega
    · rfl
    · exact (ih ((within_take p).mpr ⟨h, by omega⟩)).trans (if_pos ‹_›)
    · exact (ih ((within_take p).mpr ⟨h, by omega⟩)).trans (if_neg ‹_›)

/-- Whether nothing is left of a record that has ended. -/
def Clean (r : Reading) : Prop := r.state = .recordStart ∨ r.state = .afterReturn → r.fields = [] ∧ r.points = []

theorem clean_takePlain (p : CodePoint) : (r.takePlain p).Clean := by
  unfold takePlain
  split_ifs
  · exact fun h => by rcases h with h | h <;> cases h
  · exact fun _ => ⟨rfl, rfl⟩
  · exact fun _ => ⟨rfl, rfl⟩
  · exact fun h => by rcases h with h | h <;> cases h

theorem clean_takeFirst (p : CodePoint) : (r.takeFirst p).Clean := by
  unfold takeFirst
  split_ifs
  · exact fun h => by rcases h with h | h <;> cases h
  · exact clean_takePlain p

theorem clean_takeStart (h : r.points = []) (p : CodePoint) : (r.takeStart p).Clean := by
  unfold takeStart
  split_ifs
  · exact fun _ => ⟨rfl, h⟩
  · exact fun _ => ⟨rfl, h⟩
  · exact clean_takeFirst p

theorem Clean.take (h : r.Clean) (p : CodePoint) : (r.take p).Clean := by
  unfold Reading.take
  split
  · exact clean_takeStart (h (.inl ‹_›)).2 p
  · exact clean_takeFirst p
  · exact clean_takePlain p
  · rename_i hs
    split_ifs
    · exact fun h => by rcases h with h | h <;> cases h
    · exact fun h => by rcases h with h | h <;> cases hs.symm.trans h
  · split_ifs
    · exact fun h => by rcases h with h | h <;> cases h
    · exact clean_takePlain p
  · split_ifs
    · exact fun _ => h (.inr ‹_›)
    · exact clean_takeStart (h (.inr ‹_›)).2 p

theorem within_finish (h : r.Clean) : Csv.Within limit r.finish ↔ r.Within limit := by
  have hreverse (rs : List (List CodePoints)) : Csv.Within limit rs.reverse ↔ Csv.Within limit rs := by
    simp only [Csv.Within, List.mem_reverse]
  have hclosed (hs : r.state = .recordStart ∨ r.state = .afterReturn) :
      Csv.Within limit r.records ↔ r.Within limit := by
    obtain ⟨hfields, hpoints⟩ := h hs
    simp [Within, Csv.Within, hfields, hpoints]
  unfold finish
  split
  · exact (hreverse _).trans (hclosed (.inl ‹_›))
  · exact (hreverse _).trans (hclosed (.inr ‹_›))
  · rw [hreverse, ← within_endRecord .recordStart]
    simp [Within, Csv.Within, endRecord, closeRecord, endField]

end Reading

/-- A reader with a limit reads all records, or none if a field is beyond the limit. -/
theorem read_eq (limit : Nat) (text : CodePoints) :
    read text limit = if Within limit (records text) then .ok (records text) else .error ⟨limit⟩ := by
  have hstart : Reading.Within limit {} := ⟨by simp [Within], Nat.zero_le _⟩
  have hclean : (text.foldl Reading.take {}).Clean :=
    List.foldlRecOn (motive := Reading.Clean) text _ (fun _ => ⟨rfl, rfl⟩) fun _ h p _ => h.take p
  rw [read, Reading.foldlM_takeWithin text hstart]
  simp only [records, Reading.within_finish hclean]
  split_ifs <;> rfl

end OnlineLearning.Csv
