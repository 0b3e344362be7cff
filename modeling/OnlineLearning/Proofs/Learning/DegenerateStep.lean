import OnlineLearning.Proofs.Binary.Error
import OnlineLearning.Proofs.Learning.ConfidentStep
import OnlineLearning.Proofs.Learning.StepBound

/-!
# Discriminants without a root

Without rounding the discriminant is `(1 - 2 * phi * m) ^ 2 + 8 * phi ^ 2 * v`, which is never below zero. With
rounding it is, or is undefined, in two ways (`degenerate_iff`): what is taken away overflows, or it comes out
above the square. Five roundings lie between that and the exact inequality, and each is off by one part in
`2 ^ 24` at most, so the second way is left only where both terms of the exact sum are next to nothing.
-/

namespace OnlineLearning.Step
variable {m v phi : Single}

/-- The ways in which what the discriminant takes away overflows or is undefined. -/
inductive Overflows (m v phi : Single) : Prop where
  | parameter (hphi : (8 * phi).isFinite = false) (hm : m.less (phi * v) = false)
  | linear (hphi : (2 * phi).isFinite = false) (hm : m.same 0 = true)
  | deduction (hphi : (8 * phi).isFinite = true) (hd : deduction m v phi = .infinite false)

/-- What the discriminant takes away comes out above the square that it is taken from. -/
structure Cancels (m v phi : Single) : Prop where
  square_finite : (linear m phi * linear m phi).isFinite = true
  deduction_finite : (deduction m v phi).isFinite = true
  less : (linear m phi * linear m phi).less (deduction m v phi) = true

/-! ### Signs -/

/-- A difference from a number that is not below zero is below zero, or undefined, in few ways. -/
theorem atMost_zero_sub_eq_false_iff {x y : Single} (hx : x ≠ .nan → Number.atMost 0 x = true) :
    Number.atMost 0 (x - y) = false ↔ x = .nan ∨ y = .nan ∨ y = .infinite false ∨
      (x.isFinite = true ∧ y.isFinite = true ∧ x.less y = true) := by
  have hnan : Number.atMost 0 (.nan : Single) = false := by decide
  have hbelow : Number.atMost 0 (.infinite true : Single) = false := by decide
  have habove : ¬ Number.atMost 0 (.infinite false : Single) = false := by decide
  cases x with
  | nan => exact iff_of_true (Number.nan_add (-y) ▸ hnan) (.inl rfl)
  | infinite s =>
    obtain rfl : s = false := by
      cases s with
      | false => rfl
      | true => exact absurd (hx nofun) (by decide)
    cases y with
    | nan => exact iff_of_true hnan (.inr (.inl rfl))
    | finite t b => exact iff_of_false habove (by simp [Number.isFinite])
    | infinite t =>
      cases t with
      | false => exact iff_of_true hnan (.inr (.inr (.inl rfl)))
      | true => exact iff_of_false habove (by simp [Number.isFinite])
  | finite s a =>
    cases y with
    | nan => exact iff_of_true hnan (.inr (.inl rfl))
    | infinite t =>
      cases t with
      | false => exact iff_of_true hbelow (.inr (.inr (.inl rfl)))
      | true => exact iff_of_false habove (by simp [Number.isFinite])
    | finite t b =>
      have hne : (.finite s a - .finite t b : Single) ≠ .nan := Number.sub_ne_nan rfl (by simp)
      rw [Number.atMost_zero_sub hne, Number.atMost_eq_not_less (by simp) (by simp)]
      simp [Number.isFinite]

theorem infinite_mul_iff {x : Single} (hx : x ≠ .nan) :
    .infinite false * x = .nan ∨ .infinite false * x = .infinite false ↔ Number.atMost 0 x = true := by
  cases x with
  | nan => exact absurd rfl hx
  | infinite s =>
    cases s with
    | false => exact iff_of_true (.inr rfl) (by decide)
    | true => exact iff_of_false (by decide) (by decide)
  | finite s a =>
    rw [Number.atMost_zero_finite_iff]
    show (if a.val = 0 then .nan else .infinite (false != s) : Single) = .nan ∨
      (if a.val = 0 then .nan else .infinite (false != s) : Single) = .infinite false ↔ _
    by_cases h0 : a.val = 0
    · exact iff_of_true (.inl (if_pos h0)) (.inr h0)
    · rw [if_neg h0]
      cases s <;> simp [h0]

section
variable (h : Sound m v phi)
include h

theorem Sound.difference_ne_nan : m - phi * v ≠ .nan := Number.sub_ne_nan h.margin h.threshold_ne_nan

theorem Sound.less_zero_eight_phi : Number.less 0 (8 * phi) = true := by
  have hpos := Number.magnitude_pos h.confidence_pos
  have hle : phi.magnitude ≤ (8 * phi).magnitude := Number.le_magnitude_mul_right (by decide)
  exact Number.less_zero_of_magnitude_pos h.atMost_zero_eight_phi (by omega)

theorem Sound.eight_phi_eq_infinite (hphi : (8 * phi).isFinite = false) : 8 * phi = .infinite false := by
  have hpos := h.less_zero_eight_phi
  cases h8 : 8 * phi with
  | nan => exact absurd h8 h.eight_phi_ne_nan
  | finite s a =>
    rw [h8] at hphi
    cases hphi
  | infinite s =>
    rw [h8] at hpos
    rw [Number.less_zero_infinite_iff.mp hpos]

theorem Sound.deduction_ne_nan (hphi : (8 * phi).isFinite = true) : deduction m v phi ≠ .nan := by
  obtain ⟨s, a, ha⟩ := Number.isFinite_iff.mp hphi
  have hpos := h.less_zero_eight_phi
  rw [ha] at hpos
  have hne := (Number.less_zero_finite_iff.mp hpos).2
  have hq := h.difference_ne_nan
  unfold deduction
  rw [ha]
  cases hm : m - phi * v with
  | nan => exact absurd hm hq
  | infinite t =>
    show (if a.val = 0 then .nan else .infinite (s != t) : Single) ≠ .nan
    rw [if_neg hne]
    nofun
  | finite t b => exact Number.ofRank_ne_nan _ _

theorem Sound.deduction_of_infinite (hphi : (8 * phi).isFinite = false) :
    deduction m v phi = .nan ∨ deduction m v phi = .infinite false ↔ m.less (phi * v) = false := by
  have hq := h.difference_ne_nan
  have hle : m.less (phi * v) = false ↔ Number.atMost 0 (m - phi * v) = true := by
    rw [Number.atMost_zero_sub hq,
      Number.atMost_eq_not_less h.threshold_ne_nan (Number.ne_nan_of_isFinite h.margin)]
    simp
  rw [hle, deduction, h.eight_phi_eq_infinite hphi]
  exact infinite_mul_iff hq

theorem Sound.linear_eq_nan_iff : linear m phi = .nan ↔ (2 * phi).isFinite = false ∧ m.same 0 = true := by
  have hone : (1 : Single).isFinite = true := by decide
  obtain ⟨s, a, ha⟩ := Number.isFinite_iff.mp h.margin
  have hsame : m.same 0 = true ↔ a.val = 0 := by
    rw [ha, Number.same_iff, Number.zero_eq]
    simp only [Number.order?_ofRank]
    cases s <;> simp [Number.order?]
    omega
  rw [hsame]
  have hterm : linear m phi = .nan ↔ 2 * phi * m = .nan := by
    constructor
    · intro hlinear
      exact Decidable.byContradiction fun hne => Number.add_ne_nan hone hne hlinear
    · intro hnan
      rw [linear, hnan, Number.add_nan]
  rw [hterm]
  cases htwo : 2 * phi with
  | nan => exact absurd htwo h.two_phi_ne_nan
  | finite t b => exact iff_of_false (by rw [ha]; exact Number.mul_ne_nan rfl rfl) (by simp [Number.isFinite])
  | infinite t =>
    rw [ha]
    show (if a.val = 0 then .nan else .infinite (t != s) : Single) = .nan ↔ _
    by_cases h0 : a.val = 0 <;> simp [h0, Number.isFinite]

/-- A step is degenerate where something overflows or the discriminant cancels. -/
theorem Sound.discriminant_iff :
    Number.atMost 0 (discriminant m v phi) = false ↔ Overflows m v phi ∨ Cancels m v phi := by
  have hsquare : linear m phi * linear m phi ≠ .nan → Number.atMost 0 (linear m phi * linear m phi) = true :=
    Number.atMost_zero_mul_self
  rw [discriminant_eq, atMost_zero_sub_eq_false_iff hsquare]
  constructor
  · rintro (hnan | hnan | hover | ⟨hs, hd, hless⟩)
    · have hlinear := h.linear_eq_nan_iff.mp (Number.eq_nan_of_mul_self hnan)
      exact .inl (.linear hlinear.1 hlinear.2)
    · have hphi : (8 * phi).isFinite = false := Bool.eq_false_iff.mpr fun hphi => h.deduction_ne_nan hphi hnan
      exact .inl (.parameter hphi ((h.deduction_of_infinite hphi).mp (.inl hnan)))
    · cases hphi : (8 * phi).isFinite with
      | true => exact .inl (.deduction hphi hover)
      | false => exact .inl (.parameter hphi ((h.deduction_of_infinite hphi).mp (.inr hover)))
    · exact .inr ⟨hs, hd, hless⟩
  · rintro (hover | hcancel)
    · cases hover with
      | parameter hphi hm =>
        rcases (h.deduction_of_infinite hphi).mpr hm with hnan | hinfinite
        · exact .inr (.inl hnan)
        · exact .inr (.inr (.inl hinfinite))
      | linear hphi hm =>
        have hnan := h.linear_eq_nan_iff.mpr ⟨hphi, hm⟩
        exact .inl (by rw [hnan]; rfl)
      | deduction hphi hd => exact .inr (.inr (.inl hd))
    · exact .inr (.inr (.inr ⟨hcancel.square_finite, hcancel.deduction_finite, hcancel.less⟩))

end

/-! ### The window of cancellation -/

/-- What is left of the exact inequality after five roundings, if a deduction `P` is above the square `S`. -/
theorem near_one_of_roundings {U X B S P Q M T p : Nat} (hU : 0 < U)
    (hP : P * 16777216 * U ≤ 8 * p * Q * 16777216 + P * U)
    (hQ : Q * 16777216 ≤ (M - T) * 16777216 + Q) (hT : T ≤ M)
    (hX : 2 * p * M * 16777216 ≤ X * 16777217 * U)
    (hB : (U + X) * 16777216 ≤ B * 16777217)
    (hS : B * B * 16777216 ≤ S * 16777217 * U) (hless : S < P) :
    524288 * (U * U + X * X) < 1048577 * (X * U) ∧ 8 * p * T * 4194304 < 7 * (X * U) := by
  have hsquare := Nat.mul_self_le_mul_self hB
  have hSP : S * U < P * U := Nat.mul_lt_mul_of_pos_right hless hU
  have hdifference : p * Q * 16777216 + p * T * 16777216 ≤ p * M * 16777216 + p * Q := by
    have hscaled := Nat.mul_le_mul_left p hQ
    have hsum : p * (M - T) + p * T = p * M := by rw [← Nat.mul_add, Nat.sub_add_cancel hT]
    linarith
  have hmean : 2 * (X * U) ≤ U * U + X * X := by
    rcases Nat.le_total X U with h | h
    · obtain ⟨d, rfl⟩ := Nat.exists_eq_add_of_le h
      linarith [Nat.zero_le (d * d)]
    · obtain ⟨d, rfl⟩ := Nat.exists_eq_add_of_le h
      linarith [Nat.zero_le (d * d)]
  -- each rounding in the products that it is about, so that the rest is linear
  have hP' : P * U * 16777215 ≤ p * Q * 134217728 := by linarith
  have hX' : p * M * 33554432 ≤ X * U * 16777217 := by linarith
  have hS' : B * B * 16777216 ≤ S * U * 16777217 := by linarith
  have hB' : (U * U + 2 * (X * U) + X * X) * 281474976710656 ≤ B * B * 281475010265089 := by linarith
  clear hU hP hQ hT hX hB hS hless hsquare
  rw [Nat.mul_assoc 8]
  generalize U * U = uu at *
  generalize X * U = xu at *
  generalize X * X = xx at *
  generalize B * B = bb at *
  generalize S * U = su at *
  generalize P * U = pu at *
  generalize p * Q = pq at *
  generalize p * M = pm at *
  generalize p * T = pt at *
  constructor <;> omega

theorem window_of_near_one {U X t : Nat} (hU : 0 < U) (hX : 524288 * (U * U + X * X) < 1048577 * (X * U))
    (ht : t * 4194304 < 7 * (X * U)) : 511 * U ≤ 512 * X ∧ 512 * X ≤ 513 * U ∧ t * 524288 ≤ U * U := by
  have hlow : 511 * U ≤ 512 * X := by
    refine Nat.le_of_not_lt fun hlt => ?_
    obtain ⟨d, rfl⟩ := Nat.exists_eq_add_of_le (show X ≤ U by omega)
    have hsquare := Nat.mul_self_le_mul_self (show X + d ≤ 512 * d by omega)
    linarith [Nat.zero_le (d * d), Nat.zero_le (X * d)]
  have hhigh : 512 * X ≤ 513 * U := by
    refine Nat.le_of_not_lt fun hlt => ?_
    obtain ⟨d, rfl⟩ := Nat.exists_eq_add_of_le (show U ≤ X by omega)
    have hle : U ≤ 512 * d := by omega
    have hsquare := Nat.mul_self_le_mul_self hle
    have hproduct := Nat.mul_le_mul_right d hle
    linarith [Nat.zero_le (d * d)]
  refine ⟨hlow, hhigh, ?_⟩
  have hproduct := Nat.mul_le_mul_right U hhigh
  linarith [Nat.zero_le (U * U)]

/-- A deduction `P` of at least one comes from a product of the parameter and the margin that is not small. -/
theorem le_product_of_deduction {U P Q M T p : Nat} (hU : 1073741824 ≤ U) (hone : U ≤ P)
    (hP : P * 16777216 * U ≤ 8 * p * Q * 16777216 + P * U) (hQ : Q * 16777216 ≤ (M - T) * 16777216 + Q) :
    8388608 * U ≤ 2 * p * M := by
  have hscaled : p * Q * 16777215 ≤ p * M * 16777216 := by
    have hle : Q * 16777216 ≤ M * 16777216 + Q :=
      Nat.le_trans hQ (Nat.add_le_add_right (Nat.mul_le_mul_right _ (Nat.sub_le M T)) Q)
    have := Nat.mul_le_mul_left p hle
    linarith
  have hproduct : P * U * 16777215 ≤ p * Q * 134217728 := by linarith
  have hunit : 1073741824 * U ≤ P * U := Nat.mul_le_mul (Nat.le_trans hU hone) (Nat.le_refl U)
  rw [Nat.mul_assoc 2]
  generalize P * U = pu at *
  generalize p * Q = pq at *
  generalize p * M = pm at *
  omega

namespace Cancels
variable (h : Sound m v phi) (hc : Cancels m v phi)
include h hc

theorem less_margin : (phi * v).less m = true := by
  have hsquare : Number.atMost 0 (linear m phi * linear m phi) = true :=
    Number.atMost_zero_mul_self (Number.ne_nan_of_isFinite hc.square_finite)
  have hpos : Number.less 0 (8 * phi * (m - phi * v)) = true := Number.less_of_atMost_of_less hsquare hc.less
  rw [← Number.less_zero_sub]
  exact Number.less_zero_of_less_zero_mul (Number.isFinite_of_mul hc.deduction_finite).1
    h.atMost_zero_eight_phi h.difference_ne_nan hpos

theorem atMost_zero_margin : Number.atMost 0 m = true :=
  Number.atMost_of_less (Number.less_of_atMost_of_less h.atMost_zero_threshold (hc.less_margin h))

omit h in
theorem term_finite : (2 * phi * m).isFinite = true :=
  (Number.isFinite_of_add (Number.isFinite_of_mul hc.square_finite).1).2

theorem atMost_zero_term : Number.atMost 0 (2 * phi * m) = true :=
  Number.atMost_zero_mul h.atMost_zero_two_phi (hc.atMost_zero_margin h)
    (Number.ne_nan_of_isFinite hc.term_finite)

theorem threshold_le_margin : (phi * v).magnitude ≤ m.magnitude := by
  have hfinite := (Number.isFinite_of_sub (Number.isFinite_of_mul hc.deduction_finite).2).2
  have hlt := (Number.less_iff_units? (Number.units?_eq_magnitude hfinite h.atMost_zero_threshold)
    (Number.units?_eq_magnitude h.margin (hc.atMost_zero_margin h))).mp (hc.less_margin h)
  omega

theorem magnitude_difference_le :
    (m - phi * v).magnitude * 16777216 ≤ (m.magnitude - (phi * v).magnitude) * 16777216 + (m - phi * v).magnitude := by
  have hdifference := (Number.isFinite_of_mul hc.deduction_finite).2
  have hfinite := (Number.isFinite_of_sub hdifference).2
  have hle := hc.threshold_le_margin h
  rw [Number.magnitude_sub_of_units? (Number.units?_eq_magnitude h.margin (hc.atMost_zero_margin h))
    (Number.units?_eq_magnitude hfinite h.atMost_zero_threshold) hdifference]
  have habs : ((m.magnitude : Int) - (phi * v).magnitude).natAbs = m.magnitude - (phi * v).magnitude := by omega
  rw [habs]
  exact (Format.single.nearest_sum_bounds _).2

theorem le_magnitude_linear :
    (Format.single.one + (2 * phi * m).magnitude) * 16777216 ≤ (linear m phi).magnitude * 16777217 := by
  have hlinear := (Number.isFinite_of_mul hc.square_finite).1
  have hsum := Number.magnitude_add_of_units? units?_one
    (Number.units?_eq_magnitude hc.term_finite (hc.atMost_zero_term h)) hlinear
  have habs : ((Format.single.one : Int) + (2 * phi * m).magnitude).natAbs =
      Format.single.one + (2 * phi * m).magnitude := by omega
  rw [habs] at hsum
  unfold linear
  rw [hsum]
  exact (Format.single.nearest_sum_bounds _).1

theorem one_le_square : Format.single.one ≤ (linear m phi * linear m phi).magnitude := by
  have hlinear := (Number.isFinite_of_mul hc.square_finite).1
  have hle : Number.atMost 1 (linear m phi) = true :=
    Number.atMost_add_self (hc.atMost_zero_term h) (Number.ne_nan_of_isFinite hlinear)
  have hnonneg := Number.atMost_trans zero_atMost_one hle
  have hmagnitude := (Number.atMost_iff_units? units?_one (Number.units?_eq_magnitude hlinear hnonneg)).mp hle
  have hself : (linear m phi).magnitude ≤ (linear m phi * linear m phi).magnitude :=
    Number.le_magnitude_mul_right (by omega)
  omega

omit h in
theorem square_lt_deduction : (linear m phi * linear m phi).magnitude < (deduction m v phi).magnitude := by
  have hsquare : Number.atMost 0 (linear m phi * linear m phi) = true :=
    Number.atMost_zero_mul_self (Number.ne_nan_of_isFinite hc.square_finite)
  have hdeduction := Number.atMost_trans hsquare (Number.atMost_of_less hc.less)
  have hlt := (Number.less_iff_units? (Number.units?_eq_magnitude hc.square_finite hsquare)
    (Number.units?_eq_magnitude hc.deduction_finite hdeduction)).mp hc.less
  omega

omit h in
theorem magnitude_eight_phi : (8 * phi).magnitude = 8 * phi.magnitude :=
  Number.magnitude_two_pow_mul (i := 3) (by decide) (Number.isFinite_of_mul hc.deduction_finite).1

omit h in
theorem magnitude_two_phi : (2 * phi).magnitude = 2 * phi.magnitude :=
  Number.magnitude_two_pow_mul (i := 1) (by decide) (Number.isFinite_of_mul hc.term_finite).1

theorem deduction_le :
    (deduction m v phi).magnitude * 16777216 * Format.single.one ≤
      8 * phi.magnitude * (m - phi * v).magnitude * 16777216 +
        (deduction m v phi).magnitude * Format.single.one := by
  have hfull : Format.single.stride ≤ (deduction m v phi).magnitude := by
    have hone := hc.one_le_square h
    have hlt := hc.square_lt_deduction
    have hstride := two_stride_le_one_single
    omega
  have hbounds := (Number.magnitude_mul_bounds hc.deduction_finite hfull).2
  rwa [hc.magnitude_eight_phi] at hbounds

theorem square_ge :
    (linear m phi).magnitude * (linear m phi).magnitude * 16777216 ≤
      (linear m phi * linear m phi).magnitude * 16777217 * Format.single.one := by
  have hfull : Format.single.stride ≤ (linear m phi * linear m phi).magnitude := by
    have hone := hc.one_le_square h
    have hstride := two_stride_le_one_single
    omega
  exact (Number.magnitude_mul_bounds hc.square_finite hfull).1

/-- A deduction from one on leaves a term that is far from the least numbers. -/
theorem stride_le_term : Format.single.stride ≤ (2 * phi * m).magnitude := by
  rw [Number.magnitude_mul hc.term_finite, hc.magnitude_two_phi, Format.stride_le_units_iff]
  refine Format.le_nearest _ Format.single.one_pos ?_
  have hunits : Format.single.units Format.single.stride = 8388608 := by decide
  have hone : 1073741824 ≤ Format.single.one := by decide
  have hle := hc.one_le_square h
  have hlt := hc.square_lt_deduction
  rw [hunits]
  exact le_product_of_deduction hone (by omega) (hc.deduction_le h) (hc.magnitude_difference_le h)

theorem near_one :
    Number.atMost (511 / 512) (2 * phi * m) = true ∧ (2 * phi * m).atMost (513 / 512) = true ∧
      (8 * phi * (phi * v)).atMost (1 / 524288) = true := by
  have hlow : (511 / 512 : Single).units? = some ((511 * 2 ^ 140 : Nat) : Int) := by decide
  have hhigh : (513 / 512 : Single).units? = some ((513 * 2 ^ 140 : Nat) : Int) := by decide
  have hterm := Number.units?_eq_magnitude hc.term_finite (hc.atMost_zero_term h)
  have hfull : Format.single.stride ≤ (2 * phi * m).magnitude := hc.stride_le_term h
  have hproduct := (Number.magnitude_mul_bounds hc.term_finite hfull).1
  rw [hc.magnitude_two_phi] at hproduct
  obtain ⟨hX, ht⟩ := near_one_of_roundings Format.single.one_pos (hc.deduction_le h) (hc.magnitude_difference_le h)
    (hc.threshold_le_margin h) hproduct (hc.le_magnitude_linear h) (hc.square_ge h) hc.square_lt_deduction
  obtain ⟨hX₀, hX₁, hT⟩ := window_of_near_one Format.single.one_pos hX ht
  have hone : Format.single.one = 512 * 2 ^ 140 := by decide
  refine ⟨(Number.atMost_iff_units? hlow hterm).mpr ?_, (Number.atMost_iff_units? hterm hhigh).mpr ?_, ?_⟩
  · rw [hone] at hX₀
    omega
  · rw [hone] at hX₁
    omega
  · have hbound : (1 / 524288 : Single) = .finite false ⟨905969664, by decide⟩ := by decide
    have hunits : Format.single.units 905969664 * 524288 = Format.single.one := by decide
    have height := (Number.isFinite_of_mul hc.deduction_finite).1
    have hthreshold := (Number.isFinite_of_sub (Number.isFinite_of_mul hc.deduction_finite).2).2
    rw [hbound]
    refine Number.mul_atMost_finite height hthreshold (Nat.le_of_mul_le_mul_right (c := 524288) ?_ (by decide))
    rw [hc.magnitude_eight_phi, Nat.mul_right_comm (Format.single.units _), hunits]
    exact hT

end Cancels

/-- A discriminant has no root exactly where something overflows or it cancels, and that is reported unless the
divisor is zero. Cancelling takes a term next to one and a variance next to nothing. -/
theorem degenerate_iff (h : Sound m v phi) :
    (Number.atMost 0 (discriminant m v phi) = false ↔ Overflows m v phi ∨ Cancels m v phi) ∧
      ((size m v phi).2 ≠ [] ↔ (divisor v phi).same 0 = false ∧ (Overflows m v phi ∨ Cancels m v phi)) ∧
      (Cancels m v phi → Number.atMost (511 / 512) (2 * phi * m) = true ∧
        (2 * phi * m).atMost (513 / 512) = true ∧ (8 * phi * (phi * v)).atMost (1 / 524288) = true) := by
  refine ⟨h.discriminant_iff, ?_, fun hcancel => hcancel.near_one h⟩
  rw [← h.discriminant_iff]
  cases hdivisor : (divisor v phi).same 0 with
  | true => simp [size_of_same_zero hdivisor]
  | false =>
    cases hd : Number.atMost 0 (discriminant m v phi) with
    | true => simp [size_of_solvable hdivisor hd]
    | false => simp [size_of_degenerate hdivisor hd]

/-- What is taken away for a margin of `10 ^ 38` overflows. -/
theorem degenerate_at_great_margin :
    Sound 100000000000000000000000000000000000000 1 1 ∧
      (size 100000000000000000000000000000000000000 1 1).2 ≠ [] := by
  have hsound : Sound 100000000000000000000000000000000000000 1 1 := by decide
  have hover : Overflows 100000000000000000000000000000000000000 1 1 :=
    .deduction (by decide) (by decide)
  exact ⟨hsound, (degenerate_iff hsound).2.1.mpr ⟨by decide, .inl hover⟩⟩

/-- With a margin next to one half the discriminant comes out below zero. -/
theorem degenerate_next_to_half :
    Sound (8388609 / 16777216) (1 / 10000000000) 1 ∧
      (discriminant (8388609 / 16777216) (1 / 10000000000) 1).less 0 = true ∧
      (size (8388609 / 16777216) (1 / 10000000000) 1).2 ≠ [] := by
  have hsize : (size (8388609 / 16777216) (1 / 10000000000) 1).2.length = 1 := by decide
  refine ⟨by decide, by decide, fun hnil => ?_⟩
  rw [hnil] at hsize
  cases hsize

end OnlineLearning.Step
