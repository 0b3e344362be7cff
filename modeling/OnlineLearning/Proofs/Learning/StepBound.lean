import OnlineLearning.Proofs.Binary.Magnitude
import OnlineLearning.Proofs.Learning.Covariance

/-!
# How far a step moves a mean

With the standard confidence parameter a finite step size is at most `2 ^ 65` over four times the
variance: a square that the discriminant contains has not overflowed, so neither term of the numerator
is beyond `2 ^ 64`. The variance is at least what any one coordinate adds to it. If a covariance times
its value is small, so is any finite step times both; if not, the value itself is not small, and the
step is held down by its square. Either way no mean moves by more than `2 ^ 100` (`magnitude_move_le`),
which is lost on means close to the end of the format.

All exponents below are those of units: one is `2 ^ 149` units, and the format ends at `2 ^ 277`.
-/

namespace OnlineLearning

namespace Format

theorem exists_units_top_single : ∃ e, e = 277 ∧ single.units single.top = 2 ^ e := ⟨277, rfl, by decide +kernel⟩

theorem one_single : single.one = 2 ^ 149 := by decide

theorem two_pow_le_top_single {k : Nat} (h : k ≤ 277) : 2 ^ k ≤ single.units single.top := by
  obtain ⟨e, he, htop⟩ := exists_units_top_single
  rw [htop]
  exact Nat.pow_le_pow_right (by decide) (by omega)

end Format

namespace Number
variable {x y : Single} {a b : Nat}

theorem lt_two_pow_of_isFinite {k : Nat} (hk : 277 ≤ k) (h : x.isFinite = true) : x.magnitude < 2 ^ k := by
  obtain ⟨e, he, htop⟩ := Format.exists_units_top_single
  have hlt := isFinite_iff_magnitude.mp h
  rw [htop] at hlt
  exact Nat.lt_of_lt_of_le hlt (Nat.pow_le_pow_right (by decide) (by omega))

theorem isFinite_of_magnitude_lt {k : Nat} (hk : k ≤ 277) (h : x.magnitude < 2 ^ k) : x.isFinite = true :=
  isFinite_iff_magnitude.mpr (Nat.lt_of_lt_of_le h (Format.two_pow_le_top_single hk))

theorem InUnit.isFinite (h : x.InUnit) : x.isFinite = true := by
  obtain ⟨r, -, -, rfl⟩ := h.exists_rank Format.rankOne_single_lt_top
  rfl

theorem InUnit.magnitude_le (h : x.InUnit) : x.magnitude ≤ 2 ^ 149 := by
  obtain ⟨r, -, hr, rfl⟩ := h.exists_rank Format.rankOne_single_lt_top
  rw [← Format.one_single, ← Format.units_rankOne]
  exact Format.single.units_le_iff.mpr hr

theorem InUnit.magnitude_pos (h : x.InUnit) : 0 < x.magnitude := by
  obtain ⟨r, hr, -, rfl⟩ := h.exists_rank Format.rankOne_single_lt_top
  exact Format.single.units_pos hr

theorem exponent_lt_of_isFinite (h : x.isFinite = true) (ha : 2 ^ a ≤ x.magnitude) : a < 277 := by
  obtain ⟨e, he, htop⟩ := Format.exists_units_top_single
  have hlt := isFinite_iff_magnitude.mp h
  rw [htop] at hlt
  have := (Nat.pow_lt_pow_iff_right (by decide)).mp (Nat.lt_of_le_of_lt ha hlt)
  omega

theorem add_lt_of_isFinite_mul (h : (x * y).isFinite = true) (ha : 2 ^ a ≤ x.magnitude)
    (hb : 2 ^ b ≤ y.magnitude) : a + b < 277 + 149 := by
  obtain ⟨e, he, htop⟩ := Format.exists_units_top_single
  refine Nat.lt_of_not_le fun hle => ?_
  have hge : 2 ^ e ≤ (x * y).magnitude :=
    le_magnitude_mul ha hb (by show e + 149 ≤ a + b; omega) (Nat.le_of_eq htop.symm)
  have hlt := isFinite_iff_magnitude.mp h
  rw [htop] at hlt
  exact absurd hlt (Nat.not_lt.mpr hge)

theorem magnitude_lt_of_isFinite_square (h : (x * x).isFinite = true) : x.magnitude < 2 ^ 213 := by
  refine Nat.lt_of_not_le fun hle => ?_
  have hlt := add_lt_of_isFinite_mul h hle hle
  omega

theorem magnitude_sqrt_single_le (h : x.sqrt.isFinite = true) : x.sqrt.magnitude ≤ 2 ^ 213 := by
  have hlt := lt_two_pow_of_isFinite (k := 277) (Nat.le_refl _) (isFinite_of_sqrt h)
  exact magnitude_sqrt_le h (Nat.le_of_lt hlt) (by decide)

end Number

namespace Step
variable {m v size c₀ c x : Single} {n k : Nat}

/-- A step size that is finite, and no more than a variance allows. -/
structure Allowed (size v : Single) : Prop where
  finite : size.isFinite = true
  variance_finite : v.isFinite = true
  variance_lt : ∀ n, 2 ^ n ≤ v.magnitude → n < 275
  bound : ∀ n k, 2 ^ n ≤ v.magnitude → 361 ≤ n + k → size.magnitude ≤ 2 ^ k

theorem size_of_less_zero {phi : Single} (h : Number.less 0 (Step.size m v phi).1 = true) :
    (Step.size m v phi).1 = (-(1 + 2 * phi * m) + (discriminant m v phi).sqrt) / (4 * phi * v) := by
  have hzero : Number.less 0 (0 : Single) ≠ true := by decide
  unfold Step.size at h ⊢
  dsimp only at h ⊢
  split
  · rename_i hdivisor
    rw [if_pos hdivisor] at h
    exact absurd h hzero
  rename_i hdivisor
  rw [if_neg hdivisor] at h
  split
  · rfl
  · rename_i hsign
    rw [if_neg hsign] at h
    exact absurd h hzero

theorem magnitude_numerator_le
    (h : (-(1 + 2 * 1 * m) + (discriminant m v 1).sqrt).isFinite = true) :
    (-(1 + 2 * 1 * m) + (discriminant m v 1).sqrt).magnitude ≤ 2 ^ 214 := by
  obtain ⟨hb, hroot⟩ := Number.isFinite_of_add h
  have hsquare : ((1 + 2 * 1 * m) * (1 + 2 * 1 * m)).isFinite = true :=
    (Number.isFinite_of_sub (Number.isFinite_of_sqrt hroot)).1
  have hble := Number.magnitude_lt_of_isFinite_square hsquare
  rw [← Number.magnitude_neg] at hble
  have hrootle := Number.magnitude_sqrt_single_le hroot
  refine Number.magnitude_add_le_two_pow hb hroot ?_
  rw [Nat.pow_succ 2 213]
  omega

theorem magnitude_four : (4 * 1 : Single).magnitude = 2 ^ 151 := by decide

theorem allowed_size (hpos : Number.less 0 (Step.size m v 1).1 = true)
    (hne : (Step.size m v 1).1 ≠ .infinite false) : Allowed (Step.size m v 1).1 v := by
  have hfinite := Number.isFinite_of_less_zero hpos hne
  rw [size_of_less_zero hpos] at hfinite hne ⊢
  rw [size_of_less_zero hpos] at hpos
  obtain ⟨hnumerator, hdivisor⟩ := Number.isFinite_of_less_zero_div hpos hne
  have hlt : ∀ n, 2 ^ n ≤ v.magnitude → n < 275 := by
    intro n hn
    have hproduct := Number.add_lt_of_isFinite_mul hdivisor (Nat.le_of_eq magnitude_four.symm) hn
    omega
  refine ⟨hfinite, (Number.isFinite_of_mul hdivisor).2, hlt, fun n k hn hk => ?_⟩
  have hnlt := hlt n hn
  have hfour : 2 ^ (n + 2) ≤ (4 * 1 * v).magnitude :=
    Number.le_magnitude_mul (Nat.le_of_eq magnitude_four.symm) hn (by show n + 2 + 149 ≤ 151 + n; omega)
      (Format.two_pow_le_top_single (by omega))
  refine Number.magnitude_div_le hnumerator (Number.isFinite_of_div hfinite).2
    (magnitude_numerator_le hnumerator) hfour ?_
  show 214 + 149 ≤ k + (n + 2)
  omega

/-- The exponent of a power of two that a covariance stays below, however often it shrinks. -/
def reach (c : Single) : Nat := min (max (c.magnitude.log2 + 1) 23) 149

theorem magnitude_le_reach (h : c.InUnit) : c.magnitude ≤ 2 ^ reach c := by
  unfold reach
  rcases Nat.le_total 149 (max (c.magnitude.log2 + 1) 23) with hle | hle
  · rw [Nat.min_eq_right hle]
    exact h.magnitude_le
  · rw [Nat.min_eq_left hle]
    calc c.magnitude ≤ 2 ^ (c.magnitude.log2 + 1) := Nat.le_of_lt Nat.lt_log2_self
      _ ≤ 2 ^ max (c.magnitude.log2 + 1) 23 := Nat.pow_le_pow_right (by decide) (Nat.le_max_left ..)

theorem magnitude_shrink_le {phi : Single} (hc : c.InUnit) (hreach : c.magnitude ≤ 2 ^ reach c₀)
    (hs : size.HasSign false) (hp : phi.HasSign false) (h : Number.less 0 (shrink c x size phi) = true) :
    (shrink c x size phi).magnitude ≤ 2 ^ reach c₀ := by
  have hlow : 23 ≤ reach c₀ ∧ reach c₀ ≤ 149 := by unfold reach; omega
  have hone : (1 : Single).magnitude = 2 ^ 149 := by decide
  have hterm : (2 * size * phi * x * x).HasSign false :=
    (((Number.hasSign_of_less_zero (by decide)).mul hs).mul hp).mul_mul_self x
  have hinverse : (1 / c).HasSign false := by
    obtain ⟨r, -, -, hr⟩ := hc.one_div Format.rankOne_single_lt_top
    rw [hr]
    exact Number.hasSign_ofRank ..
  have hge : 2 ^ (298 - reach c₀) ≤ (1 / c).magnitude :=
    Number.le_magnitude_div hc.isFinite (Nat.le_of_eq hone.symm) hreach
      (by show 298 - reach c₀ + reach c₀ ≤ 149 + 149; omega) (Format.two_pow_le_top_single (by omega))
  have hsum := Nat.le_trans hge (hinverse.le_magnitude_add hterm).1
  have hnan : 1 / c + 2 * size * phi * x * x ≠ .nan := by
    intro hnan
    rw [shrink, hnan, Number.div_nan] at h
    cases h
  refine Number.magnitude_div_le (by decide) hnan (Nat.le_of_eq hone) hsum ?_
  show 149 + 149 ≤ reach c₀ + (298 - reach c₀)
  omega

/-- An allowed step size is held down by the square of each value. -/
theorem Allowed.magnitude_le_of_term (ha : Allowed size v) (hv : (c₀ * x * x).magnitude ≤ v.magnitude)
    (hx : x.isFinite = true) {A B : Nat} (hA : 2 ^ A ≤ c₀.magnitude) (hB : 2 ^ B ≤ x.magnitude) (hA' : A ≤ 149)
    (hAB : 149 ≤ A + B) (hABB : 298 ≤ A + 2 * B) :
    A + 2 * B < 573 ∧ size.magnitude ≤ 2 ^ (659 - (A + 2 * B)) := by
  have hB' := Number.exponent_lt_of_isFinite hx hB
  have honce : 2 ^ (A + B - 149) ≤ (c₀ * x).magnitude :=
    Number.le_magnitude_mul hA hB (by show A + B - 149 + 149 ≤ A + B; omega)
      (Format.two_pow_le_top_single (by omega))
  have htwice : 2 ^ min (A + 2 * B - 298) 275 ≤ (c₀ * x * x).magnitude :=
    Number.le_magnitude_mul honce hB (by show min (A + 2 * B - 298) 275 + 149 ≤ A + B - 149 + B; omega)
      (Format.two_pow_le_top_single (by omega))
  have hlt := ha.variance_lt _ (Nat.le_trans htwice hv)
  exact ⟨by omega, ha.bound _ _ (Nat.le_trans htwice hv) (by omega)⟩

/-- Along a coordinate that a variance takes in, an allowed step moves no mean by more than `2 ^ 100`. -/
theorem magnitude_move_le (ha : Allowed size v) (h₀ : c₀.InUnit)
    (hv : (c₀ * x * x).magnitude ≤ v.magnitude) (hc : c.InUnit) (hreach : c.magnitude ≤ 2 ^ reach c₀) :
    (size * c * x).magnitude ≤ 2 ^ 249 := by
  have hterm : (c₀ * x * x).isFinite = true :=
    Number.isFinite_iff_magnitude.mpr (Nat.lt_of_le_of_lt hv (Number.isFinite_iff_magnitude.mp ha.variance_finite))
  have hx : x.isFinite = true := (Number.isFinite_of_mul hterm).2
  have hsc : (size * c).isFinite = true := by
    have hle := Number.magnitude_mul_le_left ha.finite hc.isFinite (Format.one_single ▸ hc.magnitude_le)
    exact Number.isFinite_iff_magnitude.mpr (Nat.lt_of_le_of_lt hle (Number.isFinite_iff_magnitude.mp ha.finite))
  -- the exponents of the value and of the covariance that the variance was taken with
  have hxlt : x.magnitude ≤ 2 ^ (x.magnitude.log2 + 1) := Nat.le_of_lt Nat.lt_log2_self
  have hA : 2 ^ c₀.magnitude.log2 ≤ c₀.magnitude := Nat.log2_self_le (Nat.ne_of_gt h₀.magnitude_pos)
  have hA' : c₀.magnitude.log2 ≤ 149 :=
    (Nat.pow_le_pow_iff_right (by decide)).mp (Nat.le_trans hA h₀.magnitude_le)
  have hE : reach c₀ = min (max (c₀.magnitude.log2 + 1) 23) 149 := rfl
  generalize c₀.magnitude.log2 = A at hA hA' hE
  generalize hB : x.magnitude.log2 = B at hxlt
  by_cases hsmall : reach c₀ + B ≤ 269
  · have hsize := Nat.le_of_lt (Number.lt_two_pow_of_isFinite (k := 277) (Nat.le_refl _) ha.finite)
    have hle := Number.magnitude_mul_le (k := 128 + reach c₀) ha.finite hc.isFinite hsize hreach
      (by show 277 + reach c₀ ≤ 128 + reach c₀ + 149; omega)
    refine Number.magnitude_mul_le hsc hx hle hxlt ?_
    show 128 + reach c₀ + (B + 1) ≤ 249 + 149
    omega
  · have hB' : 2 ^ B ≤ x.magnitude := by
      rw [← hB]
      refine Nat.log2_self_le fun h0 => ?_
      rw [h0, Nat.log2_zero] at hB
      omega
    obtain ⟨hAB, hsize⟩ := ha.magnitude_le_of_term hv hx hA hB' hA' (by omega) (by omega)
    have hle := Number.magnitude_mul_le (k := 659 - (A + 2 * B) + reach c₀ - 149) ha.finite hc.isFinite hsize hreach
      (by show 659 - (A + 2 * B) + reach c₀ ≤ 659 - (A + 2 * B) + reach c₀ - 149 + 149; omega)
    refine Number.magnitude_mul_le hsc hx hle hxlt ?_
    show 659 - (A + 2 * B) + reach c₀ - 149 + (B + 1) ≤ 249 + 149
    omega

end Step

end OnlineLearning
