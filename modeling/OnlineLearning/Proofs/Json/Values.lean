import OnlineLearning.Json.Reader
import OnlineLearning.Proofs.Datum.Showing
import OnlineLearning.Proofs.Decimal.Numerals

/-!
# What is read from a text

A text gives data of the format only: no tuples, at any depth, so that a datum that cannot be a key
is a list or a dictionary itself, and all others but null are scalars. No integer in it has more digits than
can be shown again, so a bad token can be named in full (`Value.hindrance?`). The not-a-numbers of a text are
one. The induction is on what is left of the first argument of the three readers, which call each other.
-/

namespace OnlineLearning.Json

/-- A datum that a text can hold. -/
inductive Value : Datum → Prop where
  | null : Value .null
  | bool (b : Bool) : Value (.bool b)
  | int {n : Int} (h : (Text.digits n.natAbs).length ≤ Fault.digitLimit) : Value (.int n)
  | float (x : Double) : Value (.float x 0)
  | text (s : CodePoints) : Value (.text s)
  | list {items : List Datum} (h : ∀ x ∈ items, Value x) : Value (.list items)
  | dict {entries : List (Datum × Datum)} (hnames : ∀ e ∈ entries, ∃ s, e.1 = .text s)
      (h : ∀ e ∈ entries, Value e.2) : Value (.dict entries)

/-- What a text can hold in one word that is not null. -/
inductive Scalar : Datum → Prop where
  | bool (b : Bool) : Scalar (.bool b)
  | int (n : Int) : Scalar (.int n)
  | float (x : Double) : Scalar (.float x 0)
  | text (s : CodePoints) : Scalar (.text s)

theorem Scalar.mutablePart? {d : Datum} (h : Scalar d) : d.mutablePart? = none := by
  cases h <;> rfl

theorem Scalar.isNull {d : Datum} (h : Scalar d) : d.isNull = false := by
  cases h <;> rfl

theorem Value.scalar {d : Datum} (h : Value d) (hnull : d.isNull = false) (hk : d.mutablePart? = none) :
    Scalar d := by
  cases h with
  | null => cases hnull
  | list _ | dict _ _ => cases hk
  | _ => constructor

theorem Value.mutablePart? {d : Datum} (h : Value d) (hk : d.kind.isMutable = false) :
    d.mutablePart? = none := by
  cases h with
  | list _ | dict _ _ => cases hk
  | _ => rfl

theorem Value.hindrance? {d : Datum} (h : Value d) : d.hindrance? none = none := by
  induction h with
  | int h =>
    rw [Datum.hindrance?, if_neg (Nat.not_lt.mpr h)]
    exact nofun
  | list _ ih => exact Datum.hindrance?_list _ ▸ Datum.hindranceOfItems?_eq_none_iff.mpr ih
  | dict hnames _ ih =>
    refine Datum.hindrance?_dict _ ▸ Datum.hindranceOfEntries?_eq_none_iff.mpr fun e he => ⟨?_, ih e he⟩
    obtain ⟨s, hs⟩ := hnames e he
    rw [hs]
    rfl
  | _ => rfl

section Readers
variable {c c' : Cursor} {d : Datum}

theorem value_of_mem_words {w : List Char × Datum} (h : w ∈ words) : Value w.2 := by
  simp only [words, List.mem_cons, List.not_mem_nil, or_false] at h
  rcases h with rfl | rfl | rfl | rfl | rfl | rfl
  · exact .null
  · exact .bool true
  · exact .bool false
  · exact .float .nan
  · exact .float (.infinite false)
  · exact .float (.infinite true)

theorem value_of_readNumber (h : readNumber c = .ok (d, c')) : Value d := by
  unfold readNumber at h
  dsimp only at h
  split at h
  · cases h
  split at h
  · split at h
    · cases h
    · rename_i hcount
      have hlt := Nat.lt_of_lt_of_le (Text.digitsValue_lt _)
        (Nat.pow_le_pow_right (by decide : 0 < 10) (Nat.le_of_not_lt hcount))
      cases h
      refine .int (Text.length_digits_le (by decide) ?_)
      split
      · rwa [Int.natAbs_natCast]
      · rwa [Int.natAbs_neg, Int.natAbs_natCast]
  · split at h
    · cases h
      exact .float _
    · cases h

theorem value_of_readPlain (h : readPlain c = .ok (d, c')) : Value d := by
  unfold readPlain at h
  split at h
  · rename_i word _ hw
    cases h
    exact value_of_mem_words (List.mem_of_find?_eq_some hw)
  · exact value_of_readNumber h

theorem forall_mem_setEntry {P : Datum × Datum → Prop} {key value : Datum} {entries : List (Datum × Datum)}
    (hnew : P (key, value)) (hset : ∀ e ∈ entries, P (e.1, value)) (h : ∀ e ∈ entries, P e) :
    ∀ e ∈ Datum.setEntry key value entries, P e := by
  induction entries with
  | nil => exact List.forall_mem_singleton.mpr hnew
  | cons e es ih =>
    obtain ⟨he, hes⟩ := List.forall_mem_cons.mp h
    obtain ⟨hfirst, hrest⟩ := List.forall_mem_cons.mp hset
    unfold Datum.setEntry
    split
    · exact List.forall_mem_cons.mpr ⟨hfirst, hes⟩
    · exact List.forall_mem_cons.mpr ⟨he, ih hrest hes⟩

/-- Whether an entry has a text for a name, and a value. -/
def IsEntry (e : Datum × Datum) : Prop := (∃ s, e.1 = .text s) ∧ Value e.2

theorem Value.ofEntries {entries : List (Datum × Datum)} (h : ∀ e ∈ entries, IsEntry e) : Value (.dict entries) :=
  .dict (fun e he => (h e he).1) fun e he => (h e he).2

theorem isEntry_of_mem_setEntry (name : CodePoints) {value : Datum} {entries : List (Datum × Datum)}
    (hv : Value value) (h : ∀ e ∈ entries, IsEntry e) : ∀ e ∈ Datum.setEntry (.text name) value entries, IsEntry e :=
  forall_mem_setEntry ⟨⟨name, rfl⟩, hv⟩ (fun e he => ⟨(h e he).1, hv⟩) h

/-- What the three readers give with the first argument `n` are values. -/
structure ReadsValues (n : Nat) : Prop where
  datum : ∀ {c c' d}, readDatum n c = .ok (d, c') → Value d
  items : ∀ {done c c' d}, (∀ x ∈ done, Value x) → readItems n done c = .ok (d, c') → Value d
  entries : ∀ {done c c' d}, (∀ e ∈ done, IsEntry e) → readEntries n done c = .ok (d, c') → Value d

theorem value_of_readDatum_succ {n : Nat} (ih : ReadsValues n) (h : readDatum (n + 1) c = .ok (d, c')) :
    Value d := by
  rw [readDatum] at h
  split at h
  · obtain ⟨⟨s, c₁⟩, -, hs⟩ := exists_of_bind_eq_ok h
    cases hs
    exact .text s
  · dsimp only at h
    split at h
    · cases h
      exact .list (List.forall_mem_nil _)
    · exact ih.items (List.forall_mem_nil _) h
  · dsimp only at h
    split at h
    · cases h
      exact .ofEntries (List.forall_mem_nil _)
    · exact ih.entries (List.forall_mem_nil _) h
  · exact value_of_readPlain h

theorem value_of_readItems_succ {n : Nat} (ih : ReadsValues n) {done : List Datum}
    (hdone : ∀ x ∈ done, Value x) (h : readItems (n + 1) done c = .ok (d, c')) : Value d := by
  rw [readItems] at h
  obtain ⟨⟨x, c₁⟩, hx, h⟩ := exists_of_bind_eq_ok h
  have hmore : ∀ y ∈ x :: done, Value y := List.forall_mem_cons.mpr ⟨ih.datum hx, hdone⟩
  dsimp only at h
  split at h
  · cases h
    exact .list fun y hy => hmore y (List.mem_reverse.mp hy)
  · exact ih.items hmore h
  · cases h

theorem value_of_readEntries_succ {n : Nat} (ih : ReadsValues n) {done : List (Datum × Datum)}
    (hdone : ∀ e ∈ done, IsEntry e) (h : readEntries (n + 1) done c = .ok (d, c')) : Value d := by
  rw [readEntries] at h
  split at h
  · cases h
  obtain ⟨⟨name, c₁⟩, -, h⟩ := exists_of_bind_eq_ok h
  dsimp only at h
  split at h
  · cases h
  obtain ⟨⟨value, c₂⟩, hvalue, h⟩ := exists_of_bind_eq_ok h
  have hmore := isEntry_of_mem_setEntry name (ih.datum hvalue) hdone
  dsimp only at h
  split at h
  · cases h
    exact .ofEntries hmore
  · exact ih.entries hmore h
  · cases h

theorem readsValues (n : Nat) : ReadsValues n := by
  induction n with
  | zero =>
    constructor
    · intro c c' d h
      rw [readDatum] at h
      cases h
    · intro done c c' d _ h
      rw [readItems] at h
      cases h
    · intro done c c' d _ h
      rw [readEntries] at h
      cases h
  | succ n ih =>
    exact ⟨value_of_readDatum_succ ih, value_of_readItems_succ ih, value_of_readEntries_succ ih⟩

theorem value_of_read {text : List Char} (h : read text = .ok d) : Value d := by
  unfold read at h
  split at h
  · cases h
  obtain ⟨⟨d₁, c₁⟩, hd, h⟩ := exists_of_bind_eq_ok h
  dsimp only at h
  split at h
  · cases h
    exact (readsValues _).datum hd
  · cases h

end Readers

end OnlineLearning.Json
