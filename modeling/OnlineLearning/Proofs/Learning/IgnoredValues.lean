import OnlineLearning.Proofs.Learning.ConfidentStep
import OnlineLearning.Proofs.Learning.Training

/-!
# Values that are not finite

The variance of an example adds up the squares of its values, so one value that is not finite leaves it
infinite or undefined, whatever the weights and the margin are; and nothing above zero is left of a step that
is divided by such a variance. So a confidence-weighted learner ignores the example
(`train_of_value_not_finite`). Nothing is asked of covariances and confidence parameters here.
-/

namespace OnlineLearning

namespace Store

theorem isFinite_of_variance {s : Store} {cs : List Coordinate} (h : (s.variance cs).isFinite = true) :
    ∀ c ∈ cs, c.value.narrow.isFinite = true := by
  suffices hfold : ∀ start : Single, (cs.foldl (fun sum c =>
      sum + (s.get c.key).covariance.narrow * c.value.narrow * c.value.narrow) start).isFinite = true →
      start.isFinite = true ∧ ∀ c ∈ cs, c.value.narrow.isFinite = true from (hfold 0 h).2
  clear h
  induction cs with
  | nil => exact fun start h => ⟨h, nofun⟩
  | cons c cs ih =>
    intro start h
    obtain ⟨hsum, hvalues⟩ := ih _ h
    obtain ⟨hstart, hterm⟩ := Number.isFinite_of_add hsum
    exact ⟨hstart, List.forall_mem_cons.mpr ⟨(Number.isFinite_of_mul hterm).2, hvalues⟩⟩

end Store

namespace Registry
variable {r : Registry} {cs : List Coordinate} {label : Key}

theorem isFinite_of_contender_variance (h : (r.contender true cs label).variance.isFinite = true) :
    ∀ c ∈ cs, c.value.narrow.isFinite = true := by
  rw [contender_variance] at h
  exact Store.isFinite_of_variance h

theorem isFinite_contender_variance (h : (r.margin true cs label).variance.isFinite = true) :
    (r.contender true cs label).variance.isFinite = true := by
  rcases r.margin_cases true cs label with
    ⟨-, hmargin⟩ | ⟨-, -, hmargin⟩ | ⟨other, -, -, -, hmargin⟩ <;> rw [hmargin] at h
  · exact (Number.isFinite_of_mul h).2
  · exact (Number.isFinite_of_add h).1
  · exact (Number.isFinite_of_add h).1

end Registry

theorem Step.isFinite_variance_of_size_pos {m v phi : Single} (h : Number.less 0 (size m v phi).1 = true) :
    v.isFinite = true := by
  obtain ⟨hdivisor, hd⟩ := solvable_of_size_pos h
  rw [size_of_solvable hdivisor hd] at h
  exact (Number.isFinite_of_mul (Number.isFinite_divisor h)).2

namespace Learner
variable {tokens label : Datum} {key : Key} {cs : List Coordinate}

theorem isFinite_of_stepSize_pos {r : Registry} {phi : Double} (h : Number.less 0 (stepSize r phi cs key) = true) :
    ∀ c ∈ cs, c.value.narrow.isFinite = true :=
  Registry.isFinite_of_contender_variance
    (Registry.isFinite_contender_variance (Step.isFinite_variance_of_size_pos h))

/-- An example with a value that is not finite in four bytes is read, and changes nothing. -/
theorem train_of_value_not_finite (r : Registry) (phi : Double) (hread : readExample tokens label = .ok (key, cs))
    (hvalue : ∃ c ∈ cs, c.value.narrow.isFinite = false) :
    ((confidenceWeighted phi).train r tokens label).result = .ok false ∧
      ((confidenceWeighted phi).train r tokens label).registry = r := by
  refine train_of_not_less r phi hread (Bool.eq_false_iff.mpr fun hpos => ?_)
  obtain ⟨c, hc, hinfinite⟩ := hvalue
  have hfinite := isFinite_of_stepSize_pos hpos c hc
  rw [hinfinite] at hfinite
  cases hfinite

/-- The value of `f` is finite, and overflows in four bytes. -/
def overflowingTokens : Datum := .list [.text "g", .tuple [.text "f", .float (Gaussian.decimal 1 39) 0]]

theorem train_of_value_not_finite_overflowing :
    (Gaussian.decimal 1 39).isFinite = true ∧
      ((confidenceWeighted 1).train rivalSample overflowingTokens (.text "a")).result = .ok false ∧
      ((confidenceWeighted 1).train rivalSample overflowingTokens (.text "a")).registry = rivalSample := by
  have hread : readExample overflowingTokens (.text "a") =
      .ok (Key.ofText "a", [⟨Key.ofText "g", 1⟩, ⟨Key.ofText "f", Gaussian.decimal 1 39⟩]) := rfl
  exact ⟨by decide +kernel, train_of_value_not_finite rivalSample 1 hread
    ⟨_, List.mem_cons_of_mem _ (List.mem_cons_self ..), by decide +kernel⟩⟩

end Learner

end OnlineLearning
