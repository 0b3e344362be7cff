import OnlineLearning.Proofs.Binary.Conversion
import OnlineLearning.Proofs.Learning.Parameter

/-!
# Levels of confidence

A level of confidence is a probability above one half and at most one. Its quantile is clipped and narrowed, and
both keep the order, so a greater level never has a smaller parameter (`resolve_level`). The parameter lies between
zero and five. It is zero only for a quantile that has no place among four-byte numbers; the least quantile of a
level is far greater. Not-a-number is no level and is not refused either: it fails neither of the two comparisons
that refuse, and its quantile, which is undefined, is clipped to the upper end (`resolve_undefined`).
-/

namespace OnlineLearning.Confidence
variable {quantile : Double → Double} {eta eta' : Double}

/-- Above one half and at most one. -/
structure IsLevel (eta : Double) : Prop where
  above_half : half.less eta = true
  le_one : eta.atMost 1 = true

/-- A quantile that does not fall on the probabilities. -/
def IsIncreasing (quantile : Double → Double) : Prop :=
  ∀ p q, Number.atMost 0 p = true → p.atMost q = true → q.atMost 1 = true → (quantile p).atMost (quantile q) = true

/-- The clipped quantile of a level. -/
def levelQuantile (quantile : Double → Double) (eta : Double) : Double :=
  if eta.same 1 then standardRange else clip standardRange (quantile eta)

theorem isLevel_one : IsLevel 1 := ⟨half_less_one.1, half_less_one.2⟩

theorem standardRange_atMost_self : standardRange.atMost standardRange = true := Number.atMost_refl standardRange_ne_nan

theorem halfLeast_less_standardRange : Number.halfLeast.less standardRange = true := by decide +kernel

theorem narrow_widen_ends : (0 : Double).narrow.widen = 0 ∧ standardRange.narrow.widen = 5 := by decide +kernel

/-! ### The check -/

theorem isLevel_iff (h : eta ≠ .nan) : IsLevel eta ↔ (eta.atMost half || Number.less 1 eta) = false := by
  have hlow : eta.atMost half = !half.less eta := Number.atMost_eq_not_less h half_ne_nan
  have hhigh : eta.atMost 1 = !Number.less 1 eta := Number.atMost_eq_not_less h one_ne_nan
  rw [Bool.or_eq_false_iff, hlow]
  constructor
  · intro ⟨hl, hr⟩
    rw [hhigh] at hr
    exact ⟨by rw [hl]; rfl, by simpa using hr⟩
  · intro ⟨hl, hr⟩
    exact ⟨by simpa using hl, by rw [hhigh, hr]; rfl⟩

theorem IsLevel.ne_nan (h : IsLevel eta) : eta ≠ .nan := (Number.ne_nan_of_atMost h.le_one).1

theorem IsLevel.less_zero (h : IsLevel eta) : Number.less 0 eta = true :=
  Number.less_of_less_of_atMost less_zero_half (Number.atMost_of_less h.above_half)

theorem IsLevel.not_same_zero (h : IsLevel eta) : eta.same 0 = false := by
  refine Bool.eq_false_iff.mpr fun hsame => ?_
  have hzero : Number.less 0 (0 : Double) = true :=
    Number.less_of_less_of_atMost h.less_zero (Number.same_iff_atMost.mp hsame).1
  rw [Number.less_irrefl] at hzero
  cases hzero

theorem phiOfEta_of_isLevel (h : IsLevel eta) :
    phiOfEta quantile eta = .ok (levelQuantile quantile eta).narrow.widen := by
  have hcheck := (isLevel_iff h.ne_nan).mp h
  unfold phiOfEta clippedQuantile levelQuantile
  rw [← half, hcheck, if_neg Bool.false_ne_true, standardRange_atMost_zero, if_neg Bool.false_ne_true,
    h.not_same_zero, if_neg Bool.false_ne_true]
  split <;> rfl

theorem phiOfEta_of_not_isLevel (hne : eta ≠ .nan) (h : ¬IsLevel eta) :
    phiOfEta quantile eta = .error (.etaOutOfRange eta) := by
  rw [isLevel_iff hne, Bool.not_eq_false] at h
  rw [phiOfEta, ← half, h, if_pos rfl]

/-! ### Clipped quantiles in order -/

theorem clip_atMost {x : Double} (hx : Number.less 0 x = true) :
    (clip standardRange x).atMost standardRange = true := by
  rw [clip_of_pos hx]
  split
  · rename_i hless
    exact Number.atMost_of_less hless
  · exact standardRange_atMost_self

theorem clip_mono {x y : Double} (hx : Number.less 0 x = true) (h : x.atMost y = true) :
    (clip standardRange x).atMost (clip standardRange y) = true := by
  rw [clip_of_pos (Number.less_of_less_of_atMost hx h)]
  by_cases hy : y.less standardRange = true
  · rw [if_pos hy, clip_of_pos hx, if_pos (Number.less_of_atMost_of_less h hy)]
    exact h
  · rw [if_neg hy]
    exact clip_atMost hx

section
variable (hq : IsQuantile quantile)
include hq

theorem IsQuantile.less_zero (h : IsLevel eta) : Number.less 0 (quantile eta) = true :=
  hq.pos eta h.above_half h.le_one

theorem levelQuantile_atMost (h : IsLevel eta) : (levelQuantile quantile eta).atMost standardRange = true := by
  unfold levelQuantile
  split
  · exact standardRange_atMost_self
  · exact clip_atMost (hq.less_zero h)

theorem less_zero_levelQuantile (h : IsLevel eta) : Number.less 0 (levelQuantile quantile eta) = true := by
  unfold levelQuantile
  split
  · exact standardRange_around.2
  · rw [clip_of_pos (hq.less_zero h)]
    split
    · exact hq.less_zero h
    · exact standardRange_around.2

theorem levelQuantile_mono (hincreasing : IsIncreasing quantile) (h : IsLevel eta) (h' : IsLevel eta')
    (hle : eta.atMost eta' = true) : (levelQuantile quantile eta).atMost (levelQuantile quantile eta') = true := by
  by_cases hone' : eta'.same 1 = true
  · rw [show levelQuantile quantile eta' = standardRange from if_pos hone']
    exact levelQuantile_atMost hq h
  · have hone : ¬eta.same 1 = true := by
      -- nothing but one itself lies between one and one
      intro hsame
      have hle' : Number.atMost 1 eta' = true := Number.atMost_trans (Number.same_iff_atMost.mp hsame).2 hle
      exact hone' (Number.same_iff_atMost.mpr ⟨h'.le_one, hle'⟩)
    rw [levelQuantile, levelQuantile, if_neg hone, if_neg hone']
    exact clip_mono (hq.less_zero h)
      (hincreasing eta eta' (Number.atMost_of_less h.less_zero) hle h'.le_one)

/-- A clipped quantile is above what narrowing loses exactly if the quantile is, or it stands for an infinite one. -/
theorem halfLeast_less_levelQuantile_iff (h : IsLevel eta) :
    Number.halfLeast.less (levelQuantile quantile eta) = true ↔
      eta.same 1 = true ∨ Number.halfLeast.less (quantile eta) = true := by
  have hrange := halfLeast_less_standardRange
  unfold levelQuantile
  split
  · rename_i hone
    exact ⟨fun _ => .inl hone, fun _ => hrange⟩
  · rename_i hone
    rw [clip_of_pos (hq.less_zero h)]
    split
    · exact ⟨.inr, fun hor => hor.resolve_left hone⟩
    · rename_i hless
      have hnan : quantile eta ≠ .nan := (Number.ne_nan_of_less (hq.less_zero h)).2
      have hge : standardRange.atMost (quantile eta) = true :=
        Number.atMost_of_not_less standardRange_ne_nan hnan (Bool.not_eq_true _ ▸ hless)
      exact ⟨fun _ => .inr (Number.less_of_less_of_atMost hrange hge), fun _ => hrange⟩

end

/-! ### The parameter of a level -/

theorem narrow_widen_mono {x y : Double} (h : x.atMost y = true) : x.narrow.widen.atMost y.narrow.widen = true :=
  Number.atMost_convert_of_atMost (Number.atMost_convert_of_atMost h)

theorem less_zero_narrow_widen_iff {x : Double} :
    Number.less 0 x.narrow.widen = true ↔ Number.halfLeast.less x = true := by
  rw [← Number.less_zero_narrow_iff, Number.widen, ← Number.convert_zero Format.single_within_double,
    Number.less_convert Format.single_within_double]

theorem resolve_eta (quantile : Double → Double) (eta : Double) (mark : Nat) :
    resolve quantile .null (.float eta mark) = phiOfEta quantile eta := rfl

theorem phi_bounds (hq : IsQuantile quantile) (h : IsLevel eta) :
    Number.atMost 0 (levelQuantile quantile eta).narrow.widen = true ∧
      (levelQuantile quantile eta).narrow.widen.atMost 5 = true := by
  obtain ⟨hzero, hfive⟩ := narrow_widen_ends
  constructor
  · rw [← hzero]
    exact narrow_widen_mono (Number.atMost_of_less (less_zero_levelQuantile hq h))
  · rw [← hfive]
    exact narrow_widen_mono (levelQuantile_atMost hq h)

/-- Not-a-number fails neither of the comparisons that refuse, and has no quantile. -/
theorem phiOfEta_undefined (h : quantile .nan = .nan) : phiOfEta quantile .nan = .ok 5 := by
  have hclip : clip standardRange (quantile .nan) = standardRange := by rw [h, clip_standardRange_of_nan]
  unfold phiOfEta clippedQuantile
  rw [if_neg (by decide +kernel), standardRange_atMost_zero, if_neg Bool.false_ne_true, if_neg (by decide +kernel),
    if_neg (by decide +kernel), hclip, ← narrow_widen_ends.2]
  rfl

/-- A level is accepted, and nothing else but not-a-number, which comes out as the upper end of the range. The
parameter of a level lies between zero and five, and is above zero unless its quantile is lost among four-byte
numbers. A greater level never has a smaller one. -/
theorem resolve_level (hq : IsQuantile quantile) (hincreasing : IsIncreasing quantile) :
    (∀ eta mark, IsLevel eta → ∃ phi, resolve quantile .null (.float eta mark) = .ok phi ∧
      Number.atMost 0 phi = true ∧ phi.atMost 5 = true ∧
      (Number.less 0 phi = true ↔ eta.same 1 = true ∨ Number.halfLeast.less (quantile eta) = true)) ∧
    (∀ eta mark, eta ≠ .nan → ¬IsLevel eta →
      resolve quantile .null (.float eta mark) = .error (.etaOutOfRange eta)) ∧
    (∀ mark, resolve quantile .null (.float .nan mark) = .ok 5) ∧
    ∀ eta eta' mark mark' phi phi', IsLevel eta → IsLevel eta' → eta.atMost eta' = true →
      resolve quantile .null (.float eta mark) = .ok phi → resolve quantile .null (.float eta' mark') = .ok phi' →
      phi.atMost phi' = true := by
  refine ⟨fun eta mark h => ?_, fun eta mark hne h => ?_, fun mark => ?_, ?_⟩
  · obtain ⟨hlow, hhigh⟩ := phi_bounds hq h
    rw [resolve_eta]
    refine ⟨_, phiOfEta_of_isLevel h, hlow, hhigh, ?_⟩
    rw [less_zero_narrow_widen_iff, halfLeast_less_levelQuantile_iff hq h]
  · rw [resolve_eta]
    exact phiOfEta_of_not_isLevel hne h
  · rw [resolve_eta]
    exact phiOfEta_undefined (hq.undefined _ rfl)
  · intro eta eta' mark mark' phi phi' h h' hle hphi hphi'
    rw [resolve_eta, phiOfEta_of_isLevel h] at hphi
    rw [resolve_eta, phiOfEta_of_isLevel h'] at hphi'
    rw [← Except.ok.inj hphi, ← Except.ok.inj hphi']
    exact narrow_widen_mono (levelQuantile_mono hq hincreasing h h' hle)

theorem isIncreasing_quantileAtNineTenths : IsIncreasing quantileAtNineTenths := by
  intro p q hp hpq hq
  have hdefined : Number.atMost 0 p = true ∧ p.atMost 1 = true := ⟨hp, Number.atMost_trans hpq hq⟩
  have hdefined' : Number.atMost 0 q = true := Number.atMost_trans hp hpq
  rw [quantileAtNineTenths, quantileAtNineTenths, hdefined.1, hdefined.2, hdefined', hq]
  decide +kernel

theorem isLevel_nineTenths : IsLevel (Gaussian.decimal 9 (-1)) := ⟨by decide +kernel, by decide +kernel⟩

theorem not_isLevel_half : ¬IsLevel half := by
  intro h
  have hless := h.above_half
  rw [Number.less_irrefl] at hless
  cases hless

/-- One half is refused, nine tenths has a parameter above zero, and the greatest level has none below that. -/
theorem resolve_level_nineTenths :
    IsQuantile quantileAtNineTenths ∧ IsIncreasing quantileAtNineTenths ∧
      resolve quantileAtNineTenths .null (.float half 0) = .error (.etaOutOfRange half) ∧
      ∃ phi phi', resolve quantileAtNineTenths .null (.float (Gaussian.decimal 9 (-1)) 0) = .ok phi ∧
        resolve quantileAtNineTenths .null (.float 1 0) = .ok phi' ∧
        Number.less 0 phi = true ∧ phi.atMost phi' = true ∧ phi'.atMost 5 = true := by
  obtain ⟨haccepted, hrefused, -, hmono⟩ :=
    resolve_level isQuantile_quantileAtNineTenths isIncreasing_quantileAtNineTenths
  obtain ⟨phi, hphi, -, -, hpos⟩ := haccepted _ 0 isLevel_nineTenths
  obtain ⟨phi', hphi', -, hfive, -⟩ := haccepted _ 0 isLevel_one
  have hkept : Number.halfLeast.less (quantileAtNineTenths (Gaussian.decimal 9 (-1))) = true := by decide +kernel
  have hle : (Gaussian.decimal 9 (-1)).atMost 1 = true := isLevel_nineTenths.le_one
  exact ⟨isQuantile_quantileAtNineTenths, isIncreasing_quantileAtNineTenths,
    hrefused half 0 half_ne_nan not_isLevel_half, phi, phi', hphi, hphi', hpos.mpr (.inr hkept),
    hmono _ _ 0 0 _ _ isLevel_nineTenths isLevel_one hle hphi hphi', hfive⟩

/-- Not-a-number is no level, and is accepted. -/
theorem resolve_undefined :
    ¬IsLevel .nan ∧ IsQuantile quantileAtNineTenths ∧ IsIncreasing quantileAtNineTenths ∧
      resolve quantileAtNineTenths .null (.float .nan 0) = .ok 5 ∧
      resolve Gaussian.quantile .null (.float .nan 0) = .ok 5 := by
  have hquantile : Gaussian.quantile .nan = .nan := by decide +kernel
  refine ⟨fun h => h.ne_nan rfl, isQuantile_quantileAtNineTenths, isIncreasing_quantileAtNineTenths, ?_, ?_⟩
  · rw [resolve_eta]
    exact phiOfEta_undefined rfl
  · rw [resolve_eta]
    exact phiOfEta_undefined hquantile

end OnlineLearning.Confidence
