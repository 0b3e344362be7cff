import OnlineLearning.Learning.Learner
import OnlineLearning.Proofs.Model.Labels

/-!
# The rival of a label

A margin is that of a model without labels, of a label alone, or against the one that leads the others
(`margin_cases`). The rival is one of the known labels, it is no null, and it never shares a store with the label that
it is the rival of, unless that label is not-a-number.
-/

namespace OnlineLearning

namespace Datum
variable {a b : Datum}

/-- Whether a datum is the float that is not-a-number. -/
def isNaN : Datum → Bool
  | float x _ => x.isNaN
  | _ => false

/-- Equality with anything but not-a-number is agreement. -/
theorem equals_eq_agrees (h : b.isNaN = false) : a.equals b = a.agrees b := by
  unfold equals
  split
  · rename_i x m y n
    have hy : y.isNaN = false := h
    simp [agrees, agreesPlainly, quantity?, Quantity.agrees, hy]
  · rfl

end Datum

namespace Contender
variable {cs : List Contender} {c : Contender}

theorem lead_cases (leader? : Option Contender) (c : Contender) :
    lead leader? c = some c ∨ lead leader? c = leader? := by
  unfold lead
  split
  · exact .inl rfl
  · split
    · exact .inl rfl
    · exact .inr rfl

theorem mem_of_foldl_lead {leader? : Option Contender} (h : cs.foldl lead leader? = some c) :
    c ∈ cs ∨ leader? = some c := by
  induction cs generalizing leader? with
  | nil => exact .inr h
  | cons d cs ih =>
    rcases ih h with h | h
    · exact .inl (List.mem_cons_of_mem _ h)
    · rcases lead_cases leader? d with hlead | hlead
      · obtain rfl := Option.some.inj (hlead.symm.trans h)
        exact .inl (List.mem_cons_self ..)
      · exact .inr (hlead.symm.trans h)

theorem leader?_mem (h : leader? cs = some c) : c ∈ cs :=
  (mem_of_foldl_lead h).resolve_right (by simp)

theorem exists_leader?_cons (c : Contender) (cs : List Contender) : ∃ leader, leader? (c :: cs) = some leader := by
  show ∃ leader, cs.foldl lead (some c) = some leader
  induction cs generalizing c with
  | nil => exact ⟨c, rfl⟩
  | cons d cs ih =>
    rw [List.foldl_cons]
    rcases lead_cases (some c) d with hlead | hlead <;> rw [hlead]
    · exact ih d
    · exact ih c

theorem exists_leader? (h : cs ≠ []) : ∃ leader, leader? cs = some leader := by
  obtain ⟨first, rest, rfl⟩ := List.exists_cons_of_ne_nil h
  exact exists_leader?_cons first rest

theorem label?_eq_some_iff {k : Key} : c.label? = some k ↔ c.label = k ∧ k.datum.isNull = false := by
  unfold label?
  split
  · rename_i h
    simp only [reduceCtorEq, false_iff]
    rintro ⟨rfl, hk⟩
    rw [h] at hk
    cases hk
  · rename_i h
    rw [Option.some.injEq]
    exact ⟨fun e => ⟨e, e ▸ Bool.eq_false_iff.mpr h⟩, And.left⟩

end Contender

namespace Registry
variable {r : Registry} {withVariance : Bool} {cs : List Coordinate} {label rival : Key}

/-- Before any label is known, the variance counts for both sides of the margin. -/
theorem margin_of_size_eq_zero (h : r.size = 0) : r.margin withVariance cs label =
    ⟨(r.contender withVariance cs label).score, 2 * (r.contender withVariance cs label).variance, none⟩ := by
  unfold margin
  dsimp only
  rw [if_pos h]
  rfl

theorem margin_of_alone (h : r.size ≠ 0) (hothers : Contender.leader? (r.others withVariance cs label) = none) :
    r.margin withVariance cs label =
      ⟨(r.contender withVariance cs label).score - 0, (r.contender withVariance cs label).variance + 0, none⟩ := by
  unfold margin
  dsimp only
  rw [if_neg h, hothers]
  rfl

theorem margin_of_leader {other : Contender} (h : r.size ≠ 0)
    (hother : Contender.leader? (r.others withVariance cs label) = some other) :
    r.margin withVariance cs label =
      ⟨(r.contender withVariance cs label).score - other.score,
        (r.contender withVariance cs label).variance + other.variance, other.label?⟩ := by
  unfold margin
  dsimp only
  rw [if_neg h, hother]
  rfl

/-- No label is known, or none differs from the label in question, or one of those that do leads the others. -/
theorem margin_cases (r : Registry) (withVariance : Bool) (cs : List Coordinate) (label : Key) :
    (r.size = 0 ∧ r.margin withVariance cs label =
      ⟨(r.contender withVariance cs label).score, 2 * (r.contender withVariance cs label).variance, none⟩) ∨
    (r.size ≠ 0 ∧ r.others withVariance cs label = [] ∧ r.margin withVariance cs label =
      ⟨(r.contender withVariance cs label).score - 0, (r.contender withVariance cs label).variance + 0, none⟩) ∨
    ∃ other ∈ r.labels, other.datum.equals label.datum = false ∧
      Contender.leader? (r.others withVariance cs label) = some (r.contender withVariance cs other) ∧
      r.margin withVariance cs label =
        ⟨(r.contender withVariance cs label).score - (r.contender withVariance cs other).score,
          (r.contender withVariance cs label).variance + (r.contender withVariance cs other).variance,
          (r.contender withVariance cs other).label?⟩ := by
  by_cases hsize : r.size = 0
  · exact .inl ⟨hsize, margin_of_size_eq_zero hsize⟩
  by_cases hothers : r.others withVariance cs label = []
  · have halone : Contender.leader? (r.others withVariance cs label) = none := by rw [hothers]; rfl
    exact .inr (.inl ⟨hsize, hothers, margin_of_alone hsize halone⟩)
  · obtain ⟨leader, hleader⟩ := Contender.exists_leader? hothers
    obtain ⟨other, hother, hne, rfl⟩ := mem_others_iff.mp (Contender.leader?_mem hleader)
    exact .inr (.inr ⟨other, hother, hne, hleader, margin_of_leader hsize hleader⟩)

theorem exists_of_rival (h : (r.margin withVariance cs label).rival = some rival) :
    rival ∈ r.labels ∧ rival.datum.isNull = false ∧ rival.datum.equals label.datum = false := by
  rcases r.margin_cases withVariance cs label with
    ⟨-, hmargin⟩ | ⟨-, -, hmargin⟩ | ⟨other, hother, hne, -, hmargin⟩ <;> rw [hmargin] at h
  · cases h
  · cases h
  · obtain ⟨rfl, hnull⟩ := Contender.label?_eq_some_iff.mp h
    exact ⟨hother, hnull, hne⟩

theorem rival_same_eq_false (hnan : label.datum.isNaN = false)
    (h : (r.margin withVariance cs label).rival = some rival) : rival.same label = false := by
  obtain ⟨-, -, hne⟩ := exists_of_rival h
  rwa [Datum.equals_eq_agrees hnan] at hne

end Registry

end OnlineLearning
