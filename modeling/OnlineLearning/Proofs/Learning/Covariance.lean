import OnlineLearning.Proofs.Learning.Parameter
import OnlineLearning.Proofs.Learning.Writes

/-! # Covariances stay above zero and never exceed one

The terms that a step adds to the reciprocal of a covariance may be zero, infinite or undefined, and
the reciprocal itself may overflow. The sign of the terms is all that matters: what is left is a
number up to one, and the floor catches the rest. -/

namespace OnlineLearning

namespace Format

theorem rankOne_single_lt_top : single.rankOne < single.top := by decide

end Format

/-- The covariance is a four-byte number above zero and at most one. -/
def Weight.IsTame (w : Weight) : Prop := ∃ c : Single, c.InUnit ∧ w.covariance = c.widen

theorem Weight.IsTame.inUnit {w : Weight} (h : w.IsTame) : w.covariance.InUnit := by
  obtain ⟨c, hc, hw⟩ := h
  rw [hw]
  exact hc.convert Format.single_within_double Format.rankOne_single_lt_top

theorem Weight.isTame_unseen : Weight.unseen.IsTame :=
  ⟨1, ⟨by decide +kernel, by decide +kernel⟩, by decide +kernel⟩

namespace Step
variable {covariance x step phi : Single}

theorem inUnit_leastCovariance : leastCovariance.InUnit := ⟨by decide, by decide⟩

/-- What a step adds to the reciprocal of a covariance. -/
def gain (x step phi : Single) : Single := 2 * step * phi * x * x

theorem hasSign_gain (hs : step.HasSign false) (hp : phi.HasSign false) : (gain x step phi).HasSign false := by
  have htwo : (2 : Single).HasSign false := Number.hasSign_of_less_zero (by decide)
  exact ((htwo.mul hs).mul hp).mul_mul_self x

/-- A covariance that shrinks and is not lost stays in its interval. -/
theorem inUnit_shrink (hc : covariance.InUnit) (hs : step.HasSign false) (hp : phi.HasSign false)
    (h : Number.less 0 (shrink covariance x step phi) = true) : (shrink covariance x step phi).InUnit :=
  hc.one_div_add Format.rankOne_single_lt_top (hasSign_gain hs hp) h

theorem covariance_apply (toward : Bool) {w : Weight} (hw : w.covariance = covariance.widen) :
    (apply toward x step phi w).1.covariance =
      (if Number.less 0 (shrink covariance x step phi) then shrink covariance x step phi else leastCovariance).widen := by
  have hnarrow : w.covariance.narrow = covariance := by
    rw [hw]
    exact Number.narrow_widen covariance
  simp only [apply, hnarrow]
  split <;> dsimp only

theorem isTame_apply {w : Weight} (hw : w.IsTame) (toward : Bool) (x : Single)
    (hs : Number.less 0 step = true) (hp : phi.HasSign false) : (apply toward x step phi w).1.IsTame := by
  obtain ⟨c, hc, hcov⟩ := hw
  refine ⟨_, ?_, covariance_apply toward hcov⟩
  split
  · rename_i hpos
    exact inUnit_shrink hc (Number.hasSign_of_less_zero hs) hp hpos
  · exact inUnit_leastCovariance

end Step

namespace Learner

theorem keeps_isTame {quantile : Double → Double} (hq : Confidence.IsQuantile quantile) {learner : Learner}
    (h : learner.Obtainable quantile) : learner.Keeps Weight.IsTame := by
  cases learner with
  | perceptron => exact fun _ _ _ hw => hw
  | confidenceWeighted phi =>
    obtain ⟨given, eta, hphi⟩ := h
    intro toward x step w hs hw
    exact Step.isTame_apply hw toward x hs (Confidence.hasSign_of_resolve hq hphi).convert

end Learner

/-- After each call of a session every stored covariance is above zero and at most one. -/
theorem Registry.covariance_mem_unit {quantile : Double → Double} (hq : Confidence.IsQuantile quantile)
    {calls done : List Call} (hcalls : ∀ call ∈ calls, call.Obtainable quantile) (hdone : done <+: calls) :
    ∀ row ∈ (Registry.empty.afterAll done).rows,
      Number.less 0 row.weight.covariance = true ∧ row.weight.covariance.atMost 1 = true := by
  have htame : Everywhere Weight.IsTame (Registry.empty.afterAll done) :=
    Everywhere.afterAll Weight.isTame_unseen (fun _ => Learner.keeps_isTame hq)
      (fun call hcall => hcalls call (hdone.mem hcall)) (Everywhere.empty Weight.isTame_unseen)
  intro row hrow
  have hunit := (htame.rows row hrow).inUnit
  exact ⟨hunit.pos, hunit.le_one⟩

/-- A value whose square overflows, one that is not a number, a flush, and a key that comes twice. -/
def Call.sample : List Call :=
  [.train (.confidenceWeighted Confidence.phiAtNineTenths) (.list [.text "f:1e30", .text "g"]) (.text "a"),
    .train .perceptron (.list [.text "f:nan"]) (.text "b"), .flush,
    .train (.confidenceWeighted 1) (.list [.text "f:1e10", .text "f:1e-30", .text "g:0"]) (.text "a"),
    .train (.confidenceWeighted Confidence.phiAtNineTenths) (.list [.text "f:3", .text "f"]) (.text "b")]

theorem Call.obtainable_sample : ∀ call ∈ sample, call.Obtainable Confidence.quantileAtNineTenths := by
  have heta := Confidence.resolve_nineTenths
  intro call hcall
  simp only [sample, List.mem_cons, List.not_mem_nil, or_false] at hcall
  rcases hcall with rfl | rfl | rfl | rfl | rfl
  · exact ⟨_, _, heta⟩
  · trivial
  · trivial
  · exact ⟨.null, .null, rfl⟩
  · exact ⟨_, _, heta⟩

theorem Registry.covariance_mem_unit_sample :
    Confidence.IsQuantile Confidence.quantileAtNineTenths ∧
      (∀ call ∈ Call.sample, call.Obtainable Confidence.quantileAtNineTenths) ∧
      (Registry.empty.afterAll Call.sample).rows.length = 3 ∧
      ∀ row ∈ (Registry.empty.afterAll Call.sample).rows,
        Number.less 0 row.weight.covariance = true ∧ row.weight.covariance.atMost 1 = true :=
  ⟨Confidence.isQuantile_quantileAtNineTenths, Call.obtainable_sample, by decide +kernel,
    Registry.covariance_mem_unit Confidence.isQuantile_quantileAtNineTenths Call.obtainable_sample
      List.prefix_rfl⟩

end OnlineLearning
