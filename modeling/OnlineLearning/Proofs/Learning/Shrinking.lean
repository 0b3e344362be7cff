import OnlineLearning.Proofs.Binary.Reciprocal
import OnlineLearning.Proofs.Learning.Covariance

/-!
# How a step moves a covariance

A step takes the reciprocal of a covariance, adds its gain and takes the reciprocal again. In exact
arithmetic nothing rises that way; here the way to the reciprocal and back is rounded twice. A gain that
changes the reciprocal at all outweighs both roundings, so a covariance rises only where the gain is lost
beside the reciprocal, and then by one place (`covariance_apply_atMost_iff`). The floor is another matter:
it lies above the covariances without a full significand, and those are lifted to it once the sum overflows.
-/

namespace OnlineLearning

namespace Step
variable {c x step phi : Single} {w : Weight}

theorem single_room : Format.single.units Format.single.top ≤ Format.single.one * Format.single.one := by
  decide

section
variable (hpos : Number.less 0 c = true) (hfinite : c.isFinite = true)
include hpos hfinite

/-- The floor is used exactly if the reciprocal overflows, or becomes undefined, with the gain. -/
theorem less_zero_shrink (hgain : (gain x step phi).HasSign false) :
    Number.less 0 (shrink c x step phi) = (1 / c + gain x step phi).isFinite := by
  obtain ⟨r, hr, rfl⟩ := Number.exists_rank_of_less_zero hpos hfinite
  rw [Bool.eq_iff_iff]
  constructor
  · exact Number.isFinite_divisor
  · intro hsum
    obtain ⟨q, hq, h⟩ := Number.exists_rank_one_div_add Format.rankOne_single_lt_top hr hgain hsum
    have hrank := Format.single.reciprocal_pos single_room hr r.isLt
    show Number.less 0 (1 / (1 / Number.finite false r + gain x step phi)) = true
    rw [h]
    exact Number.less_zero_one_div Format.rankOne_single_lt_top (Nat.lt_of_lt_of_le hrank hq) single_room

/-- A gain that is not lost beside the reciprocal does not let the covariance rise. -/
theorem shrink_atMost (hgain : (gain x step phi).HasSign false) (hsum : (1 / c + gain x step phi).isFinite = true)
    (hne : 1 / c + gain x step phi ≠ 1 / c) : (shrink c x step phi).atMost c = true := by
  obtain ⟨r, hr, rfl⟩ := Number.exists_rank_of_less_zero hpos hfinite
  exact Number.one_div_one_div_add_atMost Format.rankOne_single_lt_top hr hgain hsum hne

theorem one_div_one_div_atMost_next (hfull : leastCovariance.atMost (1 / c) = true) {d : Single}
    (hd : c.less d = true) : (1 / (1 / c)).atMost d = true := by
  obtain ⟨r, hr, rfl⟩ := Number.exists_rank_of_less_zero hpos hfinite
  exact Number.one_div_one_div_atMost Format.rankOne_single_lt_top hr (by decide) hfull hd

/-- What the floor does not catch rises only where the gain is lost and the reciprocal comes back above. -/
theorem shrink_atMost_iff (hgain : (gain x step phi).HasSign false) (hsum : (1 / c + gain x step phi).isFinite = true) :
    (shrink c x step phi).atMost c = true ↔ ¬ (1 / c + gain x step phi = 1 / c ∧ c.less (1 / (1 / c)) = true) := by
  constructor
  · rintro hle ⟨hlost, hless⟩
    have hirrefl := Number.less_of_less_of_atMost hless (show (1 / (1 / c)).atMost c = true by rwa [← hlost])
    rw [Number.less_irrefl] at hirrefl
    cases hirrefl
  · intro hkept
    by_cases hlost : 1 / c + gain x step phi = 1 / c
    · have hshrink : shrink c x step phi = 1 / (1 / c) := congrArg (1 / ·) hlost
      have hdefined : (1 / (1 / c) : Single) ≠ .nan := by
        have hpositive := less_zero_shrink hpos hfinite hgain
        rw [hsum, hshrink] at hpositive
        exact (Number.ne_nan_of_less hpositive).2
      rw [hshrink, Number.atMost_eq_not_less hdefined (Number.ne_nan_of_isFinite hfinite)]
      simpa using fun hless => hkept ⟨hlost, hless⟩
    · exact shrink_atMost hpos hfinite hgain hsum hlost

end

/-- A covariance rises only where the gain is lost beside its reciprocal, and then goes to the reciprocal of the
reciprocal, which is the next number if the reciprocal has a full significand. -/
theorem covariance_apply_atMost_iff (toward : Bool) {x step phi : Double} (hw : w.covariance = c.widen)
    (hpos : Number.less 0 c = true) (hfinite : c.isFinite = true) (hstep : Number.less 0 step = true)
    (hphi : Number.less 0 phi = true)
    (hfloor : leastCovariance.atMost c = true ∨ (1 / c + gain x.narrow step.narrow phi.narrow).isFinite = true) :
    let sum := 1 / c + gain x.narrow step.narrow phi.narrow
    let covariance := (apply toward x.narrow step.narrow phi.narrow w).1.covariance
    (covariance.atMost w.covariance = true ↔ ¬ (sum = 1 / c ∧ c.less (1 / (1 / c)) = true)) ∧
      (covariance.atMost w.covariance = false → covariance = (1 / (1 / c) : Single).widen ∧
        (leastCovariance.atMost (1 / c) = true → ∀ d : Single, c.less d = true → (1 / (1 / c)).atMost d = true)) := by
  intro sum covariance
  have hgain : (gain x.narrow step.narrow phi.narrow).HasSign false :=
    hasSign_gain (Number.hasSign_of_less_zero hstep).convert (Number.hasSign_of_less_zero hphi).convert
  have hcovariance : covariance = _ := covariance_apply toward hw
  have hplace : ∀ n : Single, covariance = n.widen → covariance.atMost w.covariance = n.atMost c := by
    rintro n h
    rw [h, hw]
    exact Number.atMost_convert Format.single_within_double n c
  rw [less_zero_shrink hpos hfinite hgain] at hcovariance
  cases hsum : sum.isFinite with
  | false =>
    rw [if_neg (by rw [hsum]; nofun)] at hcovariance
    have hle : covariance.atMost w.covariance = true := by
      rw [hplace _ hcovariance]
      exact hfloor.resolve_right (by rw [hsum]; nofun)
    refine ⟨⟨?_, fun _ => hle⟩, fun h => absurd hle (by rw [h]; nofun)⟩
    -- a reciprocal that comes back above its number is finite, so it is not the sum
    rintro - ⟨hlost, hless⟩
    have hreciprocal := Number.isFinite_divisor (Number.less_of_less_of_atMost hpos (Number.atMost_of_less hless))
    rw [← hlost, hsum] at hreciprocal
    cases hreciprocal
  | true =>
    rw [if_pos hsum] at hcovariance
    have hiff := shrink_atMost_iff hpos hfinite hgain hsum
    rw [← hplace _ hcovariance] at hiff
    refine ⟨hiff, fun hrise => ?_⟩
    rw [hrise] at hiff
    have hlost : sum = 1 / c := by
      by_contra hne
      exact absurd (hiff.mpr fun h => hne h.1) (by nofun)
    exact ⟨hcovariance.trans (congrArg (fun s : Single => (1 / s).widen) hlost),
      fun hfull d hd => one_div_one_div_atMost_next hpos hfinite hfull hd⟩

/-- A covariance whose reciprocal comes back above it. -/
def restless : Weight := ⟨0, (61 / 64 : Single).widen⟩

theorem covariance_apply_atMost_restless :
    Number.less 0 (61 / 64 : Single) = true ∧ (61 / 64 : Single).isFinite = true ∧
      Number.less 0 (1 : Double) = true ∧ leastCovariance.atMost (61 / 64) = true ∧
      (apply true (3 : Double).narrow (1 : Double).narrow (1 : Double).narrow restless).1.covariance.atMost
        restless.covariance = true := by
  have hpos : Number.less 0 (61 / 64 : Single) = true := by decide
  have hfinite : (61 / 64 : Single).isFinite = true := by decide
  have hone : Number.less 0 (1 : Double) = true := by decide +kernel
  have hfull : leastCovariance.atMost (61 / 64) = true := by decide
  have hkept : (1 / (61 / 64) + gain (3 : Double).narrow (1 : Double).narrow (1 : Double).narrow : Single) ≠
      1 / (61 / 64) := by decide +kernel
  have hiff := (covariance_apply_atMost_iff (c := 61 / 64) (w := restless) (x := 3) true (by dsimp only [restless])
    hpos hfinite hone hone (.inl hfull)).1
  exact ⟨hpos, hfinite, hone, hfull, hiff.mpr fun h => hkept h.1⟩

/-- With a value of zero there is no gain. -/
theorem covariance_apply_rises_restless :
    restless.mean.isFinite = true ∧ Number.less 0 restless.covariance = true ∧ (0 : Double).isFinite = true ∧
      Number.less 0 (1 : Double) = true ∧ (1 : Double).narrow.isFinite = true ∧
      (apply true (0 : Double).narrow (1 : Double).narrow (1 : Double).narrow restless).1.covariance.atMost
        restless.covariance = false := by
  decide +kernel

end Step

end OnlineLearning
