import OnlineLearning.Learning.Session
import OnlineLearning.Proofs.Binary.Monotone

/-! # The sign of the confidence parameter

A confidence parameter that is accepted has no minus sign, given directly or through a probability.
What is needed of the normal quantile is that it is undefined outside its range and positive above
one half. -/

namespace OnlineLearning

namespace Confidence

/-- One half. -/
def half : Double := Gaussian.decimal 5 (-1)

/-- What a normal quantile is like: undefined outside the range of probabilities, and positive above
one half. -/
structure IsQuantile (quantile : Double → Double) : Prop where
  undefined : ∀ p, (Number.atMost 0 p && p.atMost 1) = false → quantile p = .nan
  pos : ∀ p, half.less p = true → p.atMost 1 = true → Number.less 0 (quantile p) = true

variable {quantile : Double → Double} {given eta : Datum} {phi p : Double}

/-! ### The ends of the ranges -/

theorem less_zero_half : Number.less 0 half = true := by decide +kernel

theorem half_less_one : half.less 1 = true ∧ Number.atMost 1 (1 : Double) = true := by decide +kernel

theorem standardRange_around : Number.less (-standardRange) 0 = true ∧ Number.less 0 standardRange = true := by
  decide +kernel

theorem half_ne_nan : half ≠ .nan := (Number.ne_nan_of_less less_zero_half).2

theorem one_ne_nan : (1 : Double) ≠ .nan := (Number.ne_nan_of_less half_less_one.1).2

theorem standardRange_ne_nan : standardRange ≠ .nan := (Number.ne_nan_of_less standardRange_around.2).2

theorem standardRange_atMost_zero : standardRange.atMost 0 = false := by
  rw [Number.atMost_eq_not_less standardRange_ne_nan (Number.ne_nan_of_less standardRange_around.2).1,
    standardRange_around.2]
  rfl

/-! ### Signs -/

theorem clip_standardRange_of_nan : clip standardRange .nan = standardRange := by decide +kernel

theorem clip_of_pos (h : Number.less 0 p = true) :
    clip standardRange p = if p.less standardRange then p else standardRange := by
  have hlow : ∀ x : Double, Number.less 0 x = true → Number.less (-standardRange) x = true := fun x hx =>
    Number.less_of_less_of_atMost standardRange_around.1 (Number.atMost_of_less hx)
  unfold clip
  dsimp only
  refine if_pos (hlow _ ?_)
  split
  · exact h
  · exact standardRange_around.2

theorem hasSign_clip (h : Number.less 0 p = true) : (clip standardRange p).HasSign false := by
  rw [clip_of_pos h]
  split
  · exact Number.hasSign_of_less_zero h
  · exact Number.hasSign_of_less_zero standardRange_around.2

theorem hasSign_of_clippedQuantile (hq : IsQuantile quantile) (hhalf : p.atMost half = false)
    (hone : Number.less 1 p = false) {q : Double} (h : clippedQuantile quantile p standardRange = .ok q) :
    q.HasSign false := by
  have hrange : standardRange.HasSign false := Number.hasSign_of_less_zero standardRange_around.2
  unfold clippedQuantile at h
  rw [standardRange_atMost_zero, if_neg Bool.false_ne_true] at h
  split at h
  · rename_i hzero
    -- zero is not above one half
    have hle := Number.atMost_trans (Number.same_iff_atMost.mp hzero).1 (Number.atMost_of_less less_zero_half)
    rw [hhalf] at hle
    cases hle
  · split at h
    · rw [← Except.ok.inj h]
      exact hrange
    · rw [← Except.ok.inj h]
      by_cases hn : p = .nan
      · rw [hn, hq.undefined _ rfl, clip_standardRange_of_nan]
        exact hrange
      · exact hasSign_clip (hq.pos p (Number.less_of_not_atMost hn half_ne_nan hhalf)
          (Number.atMost_of_not_less hn one_ne_nan hone))

theorem hasSign_of_phiOfEta (hq : IsQuantile quantile) (h : phiOfEta quantile p = .ok phi) :
    phi.HasSign false := by
  unfold phiOfEta at h
  split at h
  · cases h
  rename_i hrange
  simp only [Bool.or_eq_true, not_or, Bool.not_eq_true] at hrange
  obtain ⟨hhalf, hone⟩ := hrange
  cases hc : clippedQuantile quantile p standardRange with
  | error e =>
    rw [hc] at h
    cases h
  | ok q =>
    rw [hc] at h
    rw [← show q.narrow.widen = phi from Except.ok.inj h]
    exact (hasSign_of_clippedQuantile hq hhalf hone hc).convert.convert

/-- An accepted confidence parameter has no minus sign. -/
theorem hasSign_of_resolve (hq : IsQuantile quantile) (h : resolve quantile given eta = .ok phi) :
    phi.HasSign false := by
  unfold resolve at h
  split at h
  · cases hg : given.toFloat with
    | error e => simp [hg, bind, Except.bind] at h
    | ok x =>
      simp only [hg, bind, Except.bind, checkPhi] at h
      split at h
      · rename_i hpos
        obtain rfl := Except.ok.inj h
        exact Number.hasSign_of_less_zero hpos
      · simp at h
  · split at h
    · cases he : eta.toFloat with
      | error e => simp [he, bind, Except.bind] at h
      | ok x =>
        simp only [he, bind, Except.bind] at h
        exact hasSign_of_phiOfEta hq h
    · rw [← Except.ok.inj h]
      exact Number.hasSign_of_less_zero (by decide +kernel)

/-! ### A quantile for examples -/

/-- The normal quantile as far as the probability nine tenths: constant, and undefined outside the
range of probabilities. -/
def quantileAtNineTenths (p : Double) : Double :=
  if Number.atMost 0 p && p.atMost 1 then Gaussian.decimal 12815515655446004 (-16) else .nan

theorem isQuantile_quantileAtNineTenths : IsQuantile quantileAtNineTenths := by
  constructor
  · intro p hp
    rw [quantileAtNineTenths, hp]
    rfl
  · intro p hlow hhigh
    have hzero : Number.atMost 0 p = true :=
      Number.atMost_trans (Number.atMost_of_less less_zero_half) (Number.atMost_of_less hlow)
    rw [quantileAtNineTenths, hzero, hhigh]
    show Number.less 0 (Gaussian.decimal 12815515655446004 (-16)) = true
    decide +kernel

/-- The confidence parameter of nine tenths. -/
def phiAtNineTenths : Double := (Gaussian.decimal 12815515655446004 (-16)).narrow.widen

theorem resolve_nineTenths :
    resolve quantileAtNineTenths .null (.float (Gaussian.decimal 9 (-1)) 0) = .ok phiAtNineTenths := by
  have hclip : clip standardRange (quantileAtNineTenths (Gaussian.decimal 9 (-1))) =
      Gaussian.decimal 12815515655446004 (-16) := by decide +kernel
  show phiOfEta quantileAtNineTenths (Gaussian.decimal 9 (-1)) = _
  unfold phiOfEta clippedQuantile
  rw [if_neg (by decide +kernel), standardRange_atMost_zero, if_neg Bool.false_ne_true, if_neg (by decide +kernel),
    if_neg (by decide +kernel), hclip]
  rfl

end Confidence

end OnlineLearning
