import OnlineLearning.Datum.Showing

/-!
# Data without a hindrance

A container can be shown exactly if its parts can, with one nested call less. What can be shown within some
calls can be shown without a limit to them: unless the calls run out, they make no difference.
-/

namespace OnlineLearning.Datum
variable {calls : Option Nat} {d : Datum} {items : List Datum} {entries : List (Datum × Datum)}

theorem hindranceOfItems?_eq_none_iff :
    hindranceOfItems? calls items = none ↔ ∀ x ∈ items, hindrance? calls x = none := by
  induction items with
  | nil => exact ⟨fun _ => List.forall_mem_nil _, fun _ => rfl⟩
  | cons x xs ih => rw [hindranceOfItems?, Option.or_eq_none_iff, List.forall_mem_cons, ih]

theorem hindranceOfEntries?_eq_none_iff : hindranceOfEntries? calls entries = none ↔
    ∀ e ∈ entries, hindrance? calls e.1 = none ∧ hindrance? calls e.2 = none := by
  induction entries with
  | nil => exact ⟨fun _ => List.forall_mem_nil _, fun _ => rfl⟩
  | cons e es ih =>
    rw [hindranceOfEntries?, Option.or_eq_none_iff, Option.or_eq_none_iff, List.forall_mem_cons, ih]

theorem hindrance?_list (items : List Datum) : hindrance? none (.list items) = hindranceOfItems? none items := by
  rw [hindrance?]
  · rfl
  · exact nofun

theorem hindrance?_dict (entries : List (Datum × Datum)) :
    hindrance? none (.dict entries) = hindranceOfEntries? none entries := by
  rw [hindrance?]
  · rfl
  · exact nofun

theorem or_eq_of_ne_depth {h₁ h₂ h₁' h₂' : Option Hindrance} (hfirst : h₁ ≠ some .depth → h₁' = h₁)
    (hrest : h₂ ≠ some .depth → h₂' = h₂) (hne : h₁.or h₂ ≠ some .depth) : h₁'.or h₂' = h₁.or h₂ := by
  cases h₁ with
  | none => rw [hfirst nofun, Option.none_or, hrest hne, Option.none_or]
  | some hindrance => rw [hfirst hne, Option.some_or, Option.some_or]

mutual

theorem hindrance?_eq_of_ne_depth {n : Nat} :
    (d : Datum) → hindrance? (some n) d ≠ some .depth → hindrance? none d = hindrance? (some n) d
  | d, h => by
    cases n with
    | zero =>
      rw [hindrance?] at h
      exact absurd rfl h
    | succ n =>
      match d with
      | .tuple items | .list items => exact hindranceOfItems?_eq_of_ne_depth items h
      | .dict entries => exact hindranceOfEntries?_eq_of_ne_depth entries h
      | .null | .bool _ | .int _ | .float .. | .text _ => rfl

theorem hindranceOfItems?_eq_of_ne_depth {n : Nat} : (items : List Datum) →
    hindranceOfItems? (some n) items ≠ some .depth →
      hindranceOfItems? none items = hindranceOfItems? (some n) items
  | [], _ => rfl
  | x :: xs, h => or_eq_of_ne_depth (hindrance?_eq_of_ne_depth x) (hindranceOfItems?_eq_of_ne_depth xs) h

theorem hindranceOfEntries?_eq_of_ne_depth {n : Nat} : (entries : List (Datum × Datum)) →
    hindranceOfEntries? (some n) entries ≠ some .depth →
      hindranceOfEntries? none entries = hindranceOfEntries? (some n) entries
  | [], _ => rfl
  | (k, v) :: rest, h =>
    or_eq_of_ne_depth (or_eq_of_ne_depth (hindrance?_eq_of_ne_depth k) (hindrance?_eq_of_ne_depth v))
      (hindranceOfEntries?_eq_of_ne_depth rest) h

end

end OnlineLearning.Datum
