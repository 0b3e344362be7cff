import OnlineLearning.Proofs.Learning.Writes

/-!
# How the labels of a model grow

An example adds at most one label, its own: whatever else is written goes to a rival, and a rival is
known already. A call that adds a label answers that it changed the model.
-/

namespace OnlineLearning

namespace Registry
variable {r : Registry} {label : Key}

/-- A model whose labels are those from before, or one more. -/
def Grown (label : Key) (r r' : Registry) : Prop := r'.labels = r.labels ∨ r'.labels = r.labels ++ [label]

namespace Grown

theorem refl (label : Key) (r : Registry) : Grown label r r := .inl rfl

theorem length_le {r' : Registry} (h : Grown label r r') : r'.labels.length ≤ r.labels.length + 1 := by
  rcases h with h | h
  · rw [h]
    omega
  · exact Nat.le_of_eq (by rw [h, List.length_append, List.length_singleton])

theorem labels_write {r' : Registry} {l : Key} {ls : List Key} (h : Grown label r r')
    (hl : l = label ∨ l ∈ r.labels) (hls : ls = if r'.contains l then r'.labels else r'.labels ++ [l]) :
    ls = r.labels ∨ ls = r.labels ++ [label] := by
  have hcontains : l ∈ r'.labels → r'.contains l = true := fun hmem => contains_iff.mpr ⟨l, hmem, Key.same_self l⟩
  by_cases hknown : r'.contains l = true
  · rw [if_pos hknown] at hls
    rw [hls]
    exact h
  · rw [if_neg hknown] at hls
    have hnew : l ∉ r'.labels := fun hmem => hknown (hcontains hmem)
    -- a label that is not known is the label of the example, and the first to be added
    rcases h with h | h
    · rw [h] at hnew hls
      rcases hl with rfl | hl
      · exact .inr hls
      · exact absurd hl hnew
    · rw [h, List.mem_append, List.mem_singleton, not_or] at hnew
      rcases hl with rfl | hl
      · exact absurd rfl hnew.2
      · exact absurd hl hnew.1

theorem create {r' : Registry} {l : Key} (h : Grown label r r') (hl : l = label ∨ l ∈ r.labels) :
    Grown label r (r'.create l) :=
  h.labels_write hl (labels_create r' l)

theorem set {r' : Registry} {l : Key} (h : Grown label r r') (hl : l = label ∨ l ∈ r.labels) (k : Key)
    (w : Weight) : Grown label r (r'.set l k w) :=
  h.labels_write hl (labels_set r' l k w)

end Grown

/-- A step or a shift of an example writes to its label and to a label that is known. -/
theorem known_of_written {withVariance : Bool} {cs : List Coordinate} {l : Key}
    (hl : l = label ∨ (r.margin withVariance cs label).rival = some l) : l = label ∨ l ∈ r.labels :=
  hl.imp_right fun h => (exists_of_rival h).1

/-- An example that changes the model adds its own label at most, and one that does not leaves it as it is. -/
theorem grown_learn (learner : Learner) (r : Registry) (cs : List Coordinate) (label : Key) :
    Grown label r (learner.learn r cs label).2.1 ∧
      ((learner.learn r cs label).1 = false → (learner.learn r cs label).2.1 = r) := by
  cases learner with
  | perceptron =>
    simp only [Learner.learn]
    split
    · exact ⟨.refl label r, fun _ => rfl⟩
    · refine ⟨?_, fun h => absurd h Bool.noConfusion⟩
      exact shiftAll_induction (Q := Grown label r) (.refl label r) (fun r' l hl hr' => hr'.create (known_of_written hl))
        fun r' l c toward hl _ hr' => hr'.set (known_of_written hl) _ _
  | confidenceWeighted phi =>
    simp only [Learner.learn]
    split
    · refine ⟨?_, fun h => absurd h Bool.noConfusion⟩
      exact step_induction (Q := Grown label r) (.refl label r) (fun r' l hl hr' => hr'.create (known_of_written hl))
        fun r' l c toward hl _ hr' => hr'.set (known_of_written hl) _ _
    · exact ⟨.refl label r, fun _ => rfl⟩

theorem grown_train (learner : Learner) (r : Registry) (tokens label : Datum) :
    (learner.train r tokens label).registry = r ∨
      (learner.train r tokens label).result = .ok true ∧
        ∃ key : Key, key.datum = label ∧ Grown key r (learner.train r tokens label).registry := by
  cases hread : Learner.readExample tokens label with
  | error e =>
    rw [Learner.train, hread]
    exact .inl rfl
  | ok example' =>
    obtain ⟨key, cs⟩ := example'
    obtain ⟨hgrown, hkept⟩ := grown_learn learner r cs key
    have hresult := learner.result_train hread r
    have hregistry : (learner.train r tokens label).registry = (learner.learn r cs key).2.1 := by
      rw [Learner.train, hread]
    rw [hresult, hregistry]
    cases hchanged : (learner.learn r cs key).1 with
    | false => exact .inl (hkept hchanged)
    | true =>
      obtain ⟨-, hkey, -⟩ := Learner.exists_of_readExample hread
      exact .inr ⟨rfl, key, Datum.toKey_eq_ok_iff.mp hkey, hgrown⟩

end Registry

end OnlineLearning
