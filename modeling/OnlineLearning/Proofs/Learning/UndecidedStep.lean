import OnlineLearning.Proofs.Learning.DegenerateStep

/-!
# Steps of undecided examples

An example whose margin is not above zero leaves nothing below zero in the discriminant, so its step is never
degenerate. Without rounding it is above zero. With rounding it is zero if neither the margin nor the variance
is noticed beside one: the numerator cancels if `2 * phi * m` is lost in `linear` and the deduction in the
discriminant or in its root (`size_pos_iff_of_undecided`).
-/

namespace OnlineLearning

namespace Format

/-- Half of the space below one is what a quotient up to one can lose. -/
theorem le_units_nearest_below_one {num den : Nat} (hd : 0 < den) (h : num ≤ single.one * den) :
    num ≤ (single.units (single.nearest num den) + 2 ^ 124) * den := by
  have hle : single.nearest num den ≤ single.rankOne := single.nearest_le hd (by rw [units_rankOne]; exact h)
  rcases Nat.lt_or_eq_of_le hle with hlt | heq
  · have hspace : single.space (single.nearest num den) ≤ 2 ^ 125 := single.space_le_two_pow hlt
    have hhalf : 2 * num ≤ (single.units (single.nearest num den) + single.units (single.nearest num den + 1)) * den :=
      single.two_mul_le_nearest hd
    rw [units_succ] at hhalf
    have hscaled := Nat.mul_le_mul_right den hspace
    rw [Nat.add_mul]
    rw [Nat.add_mul, Nat.add_mul] at hhalf
    generalize single.units (single.nearest num den) * den = a at *
    generalize single.space (single.nearest num den) * den = b at *
    omega
  · rw [heq, units_rankOne, Nat.add_mul]
    omega

end Format

namespace Step
variable {m v phi : Single}

/-- A margin that is not above zero, and a variance and a divisor above zero. -/
structure Undecided (m v phi : Single) : Prop extends Sound m v phi where
  margin_nonpos : m.atMost 0 = true
  variance_pos : Number.less 0 v = true
  divisor_finite : (divisor v phi).isFinite = true
  divisor_ne_zero : (divisor v phi).same 0 = false

instance : Decidable (Undecided m v phi) :=
  decidable_of_iff (Sound m v phi ∧ m.atMost 0 = true ∧ Number.less 0 v = true ∧
      (divisor v phi).isFinite = true ∧ (divisor v phi).same 0 = false)
    ⟨fun ⟨hsound, hm, hv, hfinite, hzero⟩ => ⟨hsound, hm, hv, hfinite, hzero⟩,
      fun h => ⟨h.toSound, h.margin_nonpos, h.variance_pos, h.divisor_finite, h.divisor_ne_zero⟩⟩

namespace Undecided
variable (h : Undecided m v phi)
include h

theorem four_phi_finite : (4 * phi).isFinite = true := (Number.isFinite_of_mul h.divisor_finite).1

theorem two_phi_finite : (2 * phi).isFinite = true := by
  have hle : (2 : Single).magnitude * phi.magnitude ≤ (4 : Single).magnitude * phi.magnitude :=
    Nat.mul_le_mul_right _ (by decide)
  have hmagnitude := Number.magnitude_mul_le_mul (by decide) h.confidence hle
  rw [Number.isFinite_iff_magnitude]
  exact Nat.lt_of_le_of_lt hmagnitude (Number.isFinite_iff_magnitude.mp h.four_phi_finite)

theorem term_ne_nan : 2 * phi * m ≠ .nan := Number.mul_ne_nan h.two_phi_finite h.margin

theorem term_atMost_zero : (2 * phi * m).atMost 0 = true :=
  Number.mul_atMost_zero h.atMost_zero_two_phi h.margin_nonpos h.term_ne_nan

theorem linear_atMost_one : (linear m phi).atMost 1 = true := by
  have hsum : (1 + 0 : Single) = 1 := by decide
  have hle := Number.atMost_add_left (z := 1) h.term_atMost_zero
    (Number.add_ne_nan (by decide) h.term_ne_nan) (by decide)
  rwa [hsum] at hle

/-! ### The deduction -/

theorem difference_atMost_zero : (m - phi * v).atMost 0 = true :=
  Number.atMost_trans (Number.sub_self_atMost h.atMost_zero_threshold h.difference_ne_nan)
    h.margin_nonpos

/-- An infinite `8 * phi` comes with a threshold above zero, so the deduction is defined there too. -/
theorem deduction_ne_nan : deduction m v phi ≠ .nan := by
  cases hphi : (8 * phi).isFinite with
  | true => exact h.toSound.deduction_ne_nan hphi
  | false =>
    have height : (8 : Single).magnitude ≤ 2 ^ 152 := by decide
    have hconfidence : 2 ^ 200 ≤ phi.magnitude := by
      refine Nat.le_of_not_lt fun hlt => ?_
      have hle : (8 * phi).magnitude ≤ 2 ^ 203 :=
        Number.magnitude_mul_le (by decide) h.confidence height (Nat.le_of_lt hlt) (by decide)
      have hfinite : (8 * phi).isFinite = true := Number.isFinite_of_magnitude_lt (k := 204) (by decide)
        (Nat.lt_of_le_of_lt hle (by decide))
      rw [hphi] at hfinite
      cases hfinite
    have hvariance : 2 ^ 0 ≤ v.magnitude := Number.magnitude_pos h.variance_pos
    have hthreshold : 2 ^ 51 ≤ (phi * v).magnitude :=
      Number.le_magnitude_mul hconfidence hvariance (by decide) (Format.two_pow_le_top_single (by decide))
    have hpos := Number.less_zero_of_magnitude_pos h.atMost_zero_threshold
      (Nat.lt_of_lt_of_le (Nat.two_pow_pos 51) hthreshold)
    have hless : m.less (phi * v) = true := Number.less_of_atMost_of_less h.margin_nonpos hpos
    intro hnan
    have := (h.toSound.deduction_of_infinite hphi).mp (.inl hnan)
    rw [hless] at this
    cases this

theorem deduction_atMost_zero : (deduction m v phi).atMost 0 = true :=
  Number.mul_atMost_zero h.atMost_zero_eight_phi h.difference_atMost_zero h.deduction_ne_nan

theorem atMost_zero_neg_deduction : Number.atMost 0 (-deduction m v phi) = true := by
  rw [Number.atMost_zero_neg]
  exact h.deduction_atMost_zero

/-! ### The discriminant and the root -/

theorem atMost_zero_square : Number.atMost 0 (linear m phi * linear m phi) = true :=
  Number.atMost_zero_mul_self fun hnan =>
    (Number.ne_nan_of_atMost h.linear_atMost_one).1 (Number.eq_nan_of_mul_self hnan)

theorem discriminant_ne_nan : discriminant m v phi ≠ .nan :=
  Number.add_ne_nan_of_nonneg h.atMost_zero_square h.atMost_zero_neg_deduction

theorem square_atMost_discriminant : (linear m phi * linear m phi).atMost (discriminant m v phi) = true :=
  Number.atMost_add_self h.atMost_zero_neg_deduction h.discriminant_ne_nan

theorem neg_deduction_atMost_discriminant : (-deduction m v phi).atMost (discriminant m v phi) = true := by
  have hcomm : discriminant m v phi = -deduction m v phi + linear m phi * linear m phi := Number.add_comm ..
  rw [hcomm]
  refine Number.atMost_add_self h.atMost_zero_square ?_
  rw [← hcomm]
  exact h.discriminant_ne_nan

theorem atMost_zero_discriminant : Number.atMost 0 (discriminant m v phi) = true :=
  Number.atMost_trans h.atMost_zero_square h.square_atMost_discriminant

omit h in
theorem atMost_root {x y : Single} (hx : Number.atMost 0 x = true) (hroot : x.sqrt = y)
    (hle : x.atMost (discriminant m v phi) = true) : y.atMost (discriminant m v phi).sqrt = true :=
  hroot ▸ Number.atMost_sqrt hx hle

omit h in
/-- The roots that the bounds below compare with; the last is the root of the least number above one. -/
theorem sqrt_of_bounds : (4 : Single).sqrt = 2 ∧ (1 : Single).sqrt = 1 ∧
    (4194305 / 4194304 : Single).sqrt = 8388609 / 8388608 ∧ (8388609 / 8388608 : Single).sqrt = 1 := by
  decide +kernel

theorem size_eq : (size m v phi).1 = ((discriminant m v phi).sqrt - linear m phi) / divisor v phi := by
  rw [size_of_solvable h.divisor_ne_zero h.atMost_zero_discriminant, Number.add_comm]
  rfl

/-! ### Numerators that leave a step -/

theorem confidence_of_great_divisor (hd : 2 ^ 256 < (divisor v phi).magnitude) : 2 ^ 128 ≤ (4 * phi).magnitude := by
  refine Nat.le_of_not_lt fun hlt => ?_
  have hvariance := Nat.le_of_lt (Number.lt_two_pow_of_isFinite (k := 277) (Nat.le_refl _) h.variance)
  have hle : (divisor v phi).magnitude ≤ 2 ^ 256 :=
    Number.magnitude_mul_le h.four_phi_finite h.variance (Nat.le_of_lt hlt) hvariance (by decide)
  omega

theorem threshold_of_great_divisor (hd : 2 ^ 256 < (divisor v phi).magnitude) : 2 ^ 254 ≤ (phi * v).magnitude := by
  have hfour : (4 : Single).magnitude = 2 ^ 2 * Format.single.one := by decide
  obtain ⟨r, hr⟩ := Format.single.exists_units_eq_two_pow 254
  obtain ⟨q, hq⟩ := Format.single.exists_units_eq_two_pow 256
  have htop : Format.single.units r ≤ Format.single.units Format.single.top := by
    rw [hr]
    exact Format.two_pow_le_top_single (by decide)
  rw [← hr]
  refine Number.units_le_magnitude_mul htop (Nat.le_of_not_lt fun hlt => ?_)
  have hle : (divisor v phi).magnitude ≤ Format.single.units q := by
    refine Number.magnitude_mul_le_units h.four_phi_finite h.variance ?_
    rw [Number.magnitude_two_pow_mul hfour h.four_phi_finite, hq]
    rw [hr] at hlt
    calc 2 ^ 2 * phi.magnitude * v.magnitude = 2 ^ 2 * (phi.magnitude * v.magnitude) := Nat.mul_assoc ..
      _ ≤ 2 ^ 2 * (2 ^ 254 * Format.single.one) := Nat.mul_le_mul_left _ (Nat.le_of_lt hlt)
      _ = 2 ^ 256 * Format.single.one := by rw [← Nat.mul_assoc, ← Nat.pow_add]
  omega

/-- Only a deduction of more than four takes a divisor beyond `2 ^ 256` units. -/
theorem four_atMost_of_great_divisor (hd : 2 ^ 256 < (divisor v phi).magnitude) :
    Number.atMost 4 (discriminant m v phi) = true := by
  have height : (4 * phi).magnitude ≤ (8 * phi).magnitude :=
    Number.magnitude_mul_le_mul (by decide) h.confidence (Nat.mul_le_mul_right _ (by decide))
  have hconfidence := h.confidence_of_great_divisor hd
  have hthreshold := h.threshold_of_great_divisor hd
  have hdifference := (Number.le_magnitude_sub h.margin_nonpos h.atMost_zero_threshold).2
  have hdeduction : 2 ^ 233 ≤ (deduction m v phi).magnitude :=
    Number.le_magnitude_mul (Nat.le_trans hconfidence height) (Nat.le_trans hthreshold hdifference) (by decide)
      (Format.two_pow_le_top_single (by decide))
  rw [← Number.magnitude_neg] at hdeduction
  refine Number.atMost_trans (Number.atMost_of_magnitude_le (by decide) (by decide)
    h.atMost_zero_neg_deduction (Nat.le_trans ?_ hdeduction)) h.neg_deduction_atMost_discriminant
  decide

/-- A numerator of `2 ^ -24` or more leaves a step above zero. -/
theorem less_zero_size_of_numerator
    (hn : Number.atMost (1 / 16777216) ((discriminant m v phi).sqrt - linear m phi) = true) :
    Number.less 0 (size m v phi).1 = true := by
  have hpos := Number.less_of_less_of_atMost (show Number.less 0 (1 / 16777216 : Single) = true by decide) hn
  have hdivisor := h.less_zero_divisor (Number.ne_nan_of_isFinite h.divisor_finite) h.divisor_ne_zero
  have hleast : 2 ^ 0 ≤ (((discriminant m v phi).sqrt - linear m phi) / divisor v phi).magnitude := by
    rcases Nat.lt_or_ge (2 ^ 256) (divisor v phi).magnitude with hlt | hle
    · -- a root of two or more makes up for any divisor
      have hroot : Number.atMost 2 (discriminant m v phi).sqrt = true :=
        atMost_root (by decide) sqrt_of_bounds.1 (h.four_atMost_of_great_divisor hlt)
      have hone := Number.sub_atMost_sub (by decide) hroot (by decide) h.linear_atMost_one
      have hmagnitude := Number.magnitude_le_of_atMost (by decide) hone
      have hunits : (2 - 1 : Single).magnitude = 2 ^ 149 := by decide
      rw [hunits] at hmagnitude
      exact Number.le_magnitude_div h.divisor_finite hmagnitude
        (Nat.le_of_lt (Number.lt_two_pow_of_isFinite (k := 277) (Nat.le_refl _) h.divisor_finite)) (by decide)
        (Format.two_pow_le_top_single (by decide))
    · have hmagnitude := Number.magnitude_le_of_atMost (by decide) hn
      have hunits : (1 / 16777216 : Single).magnitude = 2 ^ 125 := by decide
      rw [hunits] at hmagnitude
      exact Number.le_magnitude_div h.divisor_finite hmagnitude hle (by decide)
        (Format.two_pow_le_top_single (by decide))
  rw [h.size_eq]
  exact Number.less_zero_div hpos hdivisor hleast h.divisor_finite

/-! ### Terms beyond the space below one -/

omit h in
/-- The square `S` of a number `B` that falls short of `U` by `X`, up to `c`, and four times `X` or more. -/
theorem le_sum_of_square {U X B S P c : Nat} (hB : U - X ≤ B + c) (hS : B * B ≤ (S + c) * U) (hP : 4 * X ≤ P)
    (hc : c ≤ X) (hU : 0 < U) : U ≤ S + P + c := by
  rcases Nat.le_total U (X + c) with hle | hle
  · omega
  · obtain ⟨e, rfl⟩ := Nat.exists_eq_add_of_le hle
    have he : e * e ≤ B * B := Nat.mul_self_le_mul_self (by omega)
    have hproduct : (X + c + e) * (X + c + e) ≤ (S + c + 2 * (X + c)) * (X + c + e) := by nlinarith
    have := Nat.le_of_mul_le_mul_right hproduct hU
    omega

theorem four_mul_term_le (hterm : Format.single.stride < (2 * phi * m).magnitude) :
    min (4 * (2 * phi * m).magnitude) (Format.single.units Format.single.top) ≤ (deduction m v phi).magnitude := by
  cases hfinite : (deduction m v phi).isFinite with
  | false =>
    rw [Number.magnitude_of_not_finite hfinite]
    exact Nat.min_le_right ..
  | true =>
    have height : (8 * phi).magnitude = 2 ^ 3 * phi.magnitude :=
      Number.magnitude_two_pow_mul (by decide) (Number.isFinite_of_mul hfinite).1
    have htwo : (2 * phi).magnitude = 2 ^ 1 * phi.magnitude :=
      Number.magnitude_two_pow_mul (by decide) h.two_phi_finite
    have hdifference := (Number.le_magnitude_sub h.margin_nonpos h.atMost_zero_threshold).1
    refine Number.four_mul_le_magnitude_mul h.two_phi_finite h.margin hterm ?_
    rw [height, htwo]
    calc 4 * (2 ^ 1 * phi.magnitude * m.magnitude) = 2 ^ 3 * phi.magnitude * m.magnitude := by ring
      _ ≤ 2 ^ 3 * phi.magnitude * (m - phi * v).magnitude := Nat.mul_le_mul_left _ hdifference

/-- The number that is squared loses at most half of the space below one. -/
theorem le_linear_add (hlt : (2 * phi * m).magnitude < Format.single.one) :
    (linear m phi).isFinite = true ∧ (linear m phi).magnitude ≤ Format.single.one ∧
      Format.single.one - (2 * phi * m).magnitude ≤ (linear m phi).magnitude + 2 ^ 124 := by
  have hterm : (2 * phi * m).isFinite = true :=
    Number.isFinite_iff_magnitude.mpr (Nat.lt_trans hlt one_lt_units_top_single)
  have hfinite : (linear m phi).isFinite = true := by
    have hsum : (1 : Single).magnitude + (2 * phi * m).magnitude ≤ 2 ^ 150 := by
      have h149 : (1 : Single).magnitude = 2 ^ 149 := by decide
      have hone149 := Format.one_single
      rw [h149]
      omega
    have hle := Number.magnitude_add_le_two_pow (by decide) hterm hsum
    exact Number.isFinite_of_magnitude_lt (k := 151) (by decide) (Nat.lt_of_le_of_lt hle (by decide))
  have hmagnitude : (linear m phi).magnitude =
      Format.single.units (Format.single.nearest (Format.single.one - (2 * phi * m).magnitude) 1) := by
    have hsum := Number.magnitude_add_of_units? units?_one
      (Number.units?_eq_neg_magnitude hterm h.term_atMost_zero) hfinite
    have habs : ((Format.single.one : Int) + -(2 * phi * m).magnitude).natAbs =
        Format.single.one - (2 * phi * m).magnitude := by omega
    rwa [habs] at hsum
  have hle : Format.single.one - (2 * phi * m).magnitude ≤ Format.single.one * 1 := by omega
  have hround := Format.le_units_nearest_below_one Nat.one_pos hle
  rw [Nat.mul_one] at hround
  refine ⟨hfinite, ?_, hmagnitude ▸ hround⟩
  rw [hmagnitude, ← Format.units_rankOne Format.single, Format.units_le_iff]
  exact Format.nearest_le _ Nat.one_pos (by rw [Format.units_rankOne]; exact hle)

omit h in
theorem square_le (hfinite : (linear m phi).isFinite = true)
    (hle : (linear m phi).magnitude ≤ Format.single.one) :
    (linear m phi * linear m phi).isFinite = true ∧
      (linear m phi).magnitude * (linear m phi).magnitude ≤
        ((linear m phi * linear m phi).magnitude + 2 ^ 124) * Format.single.one := by
  have hproduct := Nat.mul_le_mul hle hle
  have hsquare : (linear m phi * linear m phi).magnitude ≤ Format.single.units Format.single.rankOne := by
    refine Number.magnitude_mul_le_units hfinite hfinite ?_
    rwa [Format.units_rankOne]
  have hsquarefinite : (linear m phi * linear m phi).isFinite = true :=
    Number.isFinite_iff_magnitude.mpr (Nat.lt_of_le_of_lt hsquare (by decide))
  refine ⟨hsquarefinite, ?_⟩
  rw [Number.magnitude_mul hsquarefinite]
  exact Format.le_units_nearest_below_one Format.single.one_pos hproduct

/-- What the square loses against one, the deduction makes up for. -/
theorem one_atMost_discriminant (hterm : 2 ^ 124 < (2 * phi * m).magnitude) :
    Number.atMost 1 (discriminant m v phi) = true := by
  have htop := one_lt_units_top_single
  have hdeduction := h.four_mul_term_le (Nat.lt_trans (by decide) hterm)
  rcases Nat.lt_or_ge (deduction m v phi).magnitude Format.single.one with hlt | hge
  · obtain ⟨hlinear, hle, hlost⟩ := h.le_linear_add (by omega)
    obtain ⟨hsquare, hlost'⟩ := square_le hlinear hle
    have hfinite : (deduction m v phi).isFinite = true := Number.isFinite_iff_magnitude.mpr (by omega)
    have hneg : (-deduction m v phi).units? = some ((deduction m v phi).magnitude : Int) := by
      rw [Number.units?_neg, Number.units?_eq_neg_magnitude hfinite h.deduction_atMost_zero]
      exact congrArg some (Int.neg_neg _)
    have horder := Number.order?_add (Number.units?_eq_magnitude hsquare h.atMost_zero_square) hneg
    have hone : (1 : Single).order? = some (Format.single.place (2 ^ 149 - 2 ^ 124)) := by decide
    refine Number.atMost_iff.mpr ⟨_, _, hone, horder, Format.single.place_mono ?_⟩
    have hfour : 4 * (2 * phi * m).magnitude ≤ (deduction m v phi).magnitude := by omega
    have hsum := le_sum_of_square hlost hlost' hfour (Nat.le_of_lt hterm) Format.single.one_pos
    rw [Format.one_single] at hsum
    omega
  · rw [← Number.magnitude_neg] at hge
    refine Number.atMost_trans (Number.atMost_of_magnitude_le (by decide) (by decide)
      h.atMost_zero_neg_deduction (Nat.le_trans ?_ hge)) h.neg_deduction_atMost_discriminant
    decide

theorem size_pos_of_term (hterm : (2 * phi * m).less (-(1 / 33554432)) = true) :
    Number.less 0 (size m v phi).1 = true := by
  -- the first number below `-2 ^ -25`: from there on a term is noticed beside one
  have hnext : (2 * phi * m).atMost (.ofRank true 855638017) = true :=
    Number.atMost_of_less_next (k := -855638017) (by decide) (by decide) hterm
  have hlinear : (linear m phi).atMost (16777215 / 16777216) = true := by
    have hsum : (1 + .ofRank true 855638017 : Single) = 16777215 / 16777216 := by decide
    rw [← hsum]
    exact Number.atMost_add_left hnext (Number.add_ne_nan (by decide) h.term_ne_nan) (by decide)
  have hmagnitude : 2 ^ 124 < (2 * phi * m).magnitude := by
    have hle := Number.magnitude_le_of_atMost (by decide) (Number.atMost_neg hnext)
    rw [Number.magnitude_neg (2 * phi * m)] at hle
    exact Nat.lt_of_lt_of_le (by decide) hle
  have hroot : Number.atMost 1 (discriminant m v phi).sqrt = true :=
    atMost_root (by decide) sqrt_of_bounds.2.1 (h.one_atMost_discriminant hmagnitude)
  have hnumerator := Number.sub_atMost_sub (by decide) hroot (by decide) hlinear
  have hdifference : (1 - 16777215 / 16777216 : Single) = 1 / 16777216 := by decide
  rw [hdifference] at hnumerator
  exact h.less_zero_size_of_numerator hnumerator

/-! ### Terms that are lost beside one -/

theorem linear_eq_one (hterm : (2 * phi * m).less (-(1 / 33554432)) = false) : linear m phi = 1 := by
  refine Number.eq_one_of_atMost Format.rankOne_single_lt_top ?_ h.linear_atMost_one
  have hsum : (1 + -(1 / 33554432) : Single) = 1 := by decide
  have hle : Number.atMost (-(1 / 33554432)) (2 * phi * m) = true := by
    rw [Number.atMost_eq_not_less (by decide) h.term_ne_nan, hterm]
    rfl
  have hone := Number.atMost_add_left (z := 1) hle (by decide)
    (Number.add_ne_nan (by decide) h.term_ne_nan)
  rwa [hsum] at hone

omit h in
theorem discriminant_eq_one_sub (hlinear : linear m phi = 1) : discriminant m v phi = 1 - deduction m v phi := by
  have hsquare : (1 * 1 : Single) = 1 := by decide
  rw [discriminant_eq, hlinear, hsquare]

theorem size_pos_of_deduction (hlinear : linear m phi = 1)
    (hdeduction : (deduction m v phi).atMost (-(3 / 16777216)) = true) : Number.less 0 (size m v phi).1 = true := by
  have hdifference : (1 - -(3 / 16777216) : Single) = 4194305 / 4194304 := by decide
  have hd : Number.atMost (4194305 / 4194304) (discriminant m v phi) = true := by
    rw [discriminant_eq_one_sub hlinear, ← hdifference]
    exact Number.atMost_sub_left hdeduction (Number.sub_ne_nan (by decide) h.deduction_ne_nan) (by decide)
  have hroot : Number.atMost (8388609 / 8388608) (discriminant m v phi).sqrt = true :=
    atMost_root (by decide) sqrt_of_bounds.2.2.1 hd
  have hnumerator := Number.sub_atMost_sub (by decide) hroot (by decide) h.linear_atMost_one
  exact h.less_zero_size_of_numerator (Number.atMost_trans (by decide) hnumerator)

/-- A deduction that is not noticed in the root leaves a step of zero. -/
theorem size_same_zero (hlinear : linear m phi = 1)
    (hdeduction : (deduction m v phi).atMost (-(3 / 16777216)) = false) : (size m v phi).1.same 0 = true := by
  -- the first number above `-3 * 2 ^ -24`: up to there the root of the discriminant rounds to one
  have hnext : Number.atMost (.ofRank true 876609535) (deduction m v phi) = true :=
    Number.next_atMost_of_not_atMost (k := -876609536) h.deduction_ne_nan (by decide) (by decide)
      hdeduction
  have hone : Number.atMost 1 (discriminant m v phi) = true := by
    have hsquare := h.square_atMost_discriminant
    rw [hlinear] at hsquare
    exact Number.atMost_trans (by decide) hsquare
  have hd : (discriminant m v phi).atMost (8388609 / 8388608) = true := by
    have hdifference : (1 - .ofRank true 876609535 : Single) = 8388609 / 8388608 := by decide
    rw [discriminant_eq_one_sub hlinear, ← hdifference]
    exact Number.atMost_sub_left hnext (by decide) (Number.sub_ne_nan (by decide) h.deduction_ne_nan)
  have hroot : (discriminant m v phi).sqrt = 1 := by
    refine Number.eq_one_of_atMost Format.rankOne_single_lt_top (atMost_root (by decide) sqrt_of_bounds.2.1 hone) ?_
    have hle := Number.atMost_sqrt h.atMost_zero_discriminant hd
    rwa [sqrt_of_bounds.2.2.2] at hle
  have hnumerator : (1 - 1 : Single) = 0 := by decide
  rw [h.size_eq, hroot, hlinear, hnumerator]
  exact Number.zero_div_same
    (h.less_zero_divisor (Number.ne_nan_of_isFinite h.divisor_finite) h.divisor_ne_zero) h.divisor_finite

end Undecided

/-- An example with a margin up to zero gets a step above zero exactly if the margin or the variance is noticed
beside one; otherwise its step is zero. -/
theorem size_pos_iff_of_undecided (h : Undecided m v phi) :
    (Number.less 0 (size m v phi).1 = true ↔
      (2 * phi * m).less (-(1 / 33554432)) = true ∨
        (8 * phi * (m - phi * v)).atMost (-(3 / 16777216)) = true) ∧
      (Number.less 0 (size m v phi).1 = false → (size m v phi).1.same 0 = true) := by
  cases hterm : (2 * phi * m).less (-(1 / 33554432)) with
  | true => simp [h.size_pos_of_term hterm]
  | false =>
    have hlinear := h.linear_eq_one hterm
    cases hdeduction : (8 * phi * (m - phi * v)).atMost (-(3 / 16777216)) with
    | true => simp [h.size_pos_of_deduction hlinear hdeduction]
    | false =>
      have hzero := h.size_same_zero hlinear hdeduction
      have hpos : Number.less 0 (size m v phi).1 = false := by
        obtain ⟨p, hp, h0⟩ := Number.same_iff.mp hzero
        unfold Number.less
        rw [hp, h0]
        exact decide_eq_false (Int.lt_irrefl p)
      simp [hpos, hzero]

/-- The least variance that is noticed beside a margin of zero. -/
theorem size_pos_of_least_variance :
    Undecided 0 (3 / 134217728) 1 ∧ Number.less 0 (size 0 (3 / 134217728) 1).1 = true := by
  have hundecided : Undecided 0 (3 / 134217728) 1 := by decide
  exact ⟨hundecided, (size_pos_iff_of_undecided hundecided).1.mpr (.inr (by decide))⟩

theorem size_not_pos_of_undecided :
    Undecided 0 (1 / 100000000) 1 ∧ Number.less 0 (size 0 (1 / 100000000) 1).1 = false :=
  ⟨by decide, by decide +kernel⟩

end Step

end OnlineLearning
