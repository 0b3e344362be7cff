import OnlineLearning.Learning.Step
import OnlineLearning.Proofs.Binary.Root

/-!
# Steps of confident examples

An example whose margin reaches `phi * v` needs no step: what is subtracted from the square of `linear`
is not below zero, and the root of a rounded square is not above the number that was squared, so the numerator
is not above zero. That ends where the square overflows. There the root is infinite and so is the step
(`size_pos_iff_of_confident`).
-/

namespace OnlineLearning.Step
variable {m v phi : Single}

theorem two_stride_le_one_single : 2 * Format.single.stride ≤ Format.single.one := by decide

theorem one_lt_units_top_single : Format.single.one < Format.single.units Format.single.top := by decide

theorem zero_atMost_one : Number.atMost 0 (1 : Single) = true := by decide

theorem units?_one : (1 : Single).units? = some (Format.single.one : Int) := by decide

/-- The number that the discriminant takes the square of. -/
def linear (m phi : Single) : Single := 1 + 2 * phi * m

/-- What the discriminant takes away from that square. -/
def deduction (m v phi : Single) : Single := 8 * phi * (m - phi * v)

/-- What a step size is divided by. -/
def divisor (v phi : Single) : Single := 4 * phi * v

theorem discriminant_eq (m v phi : Single) :
    discriminant m v phi = linear m phi * linear m phi - deduction m v phi := rfl

theorem size_of_same_zero (h : (divisor v phi).same 0 = true) : size m v phi = (0, []) := if_pos h

theorem size_of_solvable (h : (divisor v phi).same 0 = false)
    (hd : Number.atMost 0 (discriminant m v phi) = true) :
    size m v phi = ((-linear m phi + (discriminant m v phi).sqrt) / divisor v phi, []) :=
  (if_neg (Bool.not_eq_true _ ▸ h)).trans (if_pos hd)

theorem size_of_degenerate (h : (divisor v phi).same 0 = false)
    (hd : Number.atMost 0 (discriminant m v phi) = false) :
    size m v phi = (0, [.degenerateStep (discriminant m v phi) m v phi]) :=
  (if_neg (Bool.not_eq_true _ ▸ h)).trans (if_neg (Bool.not_eq_true _ ▸ hd))

/-- Only with a divisor and a discriminant can a step size be other than zero. -/
theorem solvable_of_size_pos (h : Number.less 0 (size m v phi).1 = true) :
    (divisor v phi).same 0 = false ∧ Number.atMost 0 (discriminant m v phi) = true := by
  have hzero : Number.less 0 (0 : Single) = false := by decide
  cases hdivisor : (divisor v phi).same 0 with
  | true =>
    rw [size_of_same_zero hdivisor, hzero] at h
    cases h
  | false =>
    cases hd : Number.atMost 0 (discriminant m v phi) with
    | true => exact ⟨rfl, rfl⟩
    | false =>
      rw [size_of_degenerate hdivisor hd, hzero] at h
      cases h

/-- Finite input with a variance that is not below zero and a confidence parameter above it. -/
structure Sound (m v phi : Single) : Prop where
  margin : m.isFinite = true
  variance : v.isFinite = true
  confidence : phi.isFinite = true
  variance_nonneg : Number.atMost 0 v = true
  confidence_pos : Number.less 0 phi = true

instance : Decidable (Sound m v phi) :=
  decidable_of_iff (m.isFinite = true ∧ v.isFinite = true ∧ phi.isFinite = true ∧
      Number.atMost 0 v = true ∧ Number.less 0 phi = true)
    ⟨fun ⟨hm, hv, hphi, hnonneg, hpos⟩ => ⟨hm, hv, hphi, hnonneg, hpos⟩,
      fun h => ⟨h.margin, h.variance, h.confidence, h.variance_nonneg, h.confidence_pos⟩⟩

namespace Sound
variable (h : Sound m v phi)
include h

theorem atMost_zero_phi_mul {x : Single} (hx : Number.atMost 0 x = true) (hne : x * phi ≠ .nan) :
    Number.atMost 0 (x * phi) = true :=
  Number.atMost_zero_mul hx (Number.atMost_of_less h.confidence_pos) hne

theorem eight_phi_ne_nan : (8 * phi : Single) ≠ .nan := Number.mul_ne_nan (by decide) h.confidence

theorem atMost_zero_eight_phi : Number.atMost 0 (8 * phi : Single) = true :=
  h.atMost_zero_phi_mul (by decide) h.eight_phi_ne_nan

theorem two_phi_ne_nan : (2 * phi : Single) ≠ .nan := Number.mul_ne_nan (by decide) h.confidence

theorem atMost_zero_two_phi : Number.atMost 0 (2 * phi : Single) = true :=
  h.atMost_zero_phi_mul (by decide) h.two_phi_ne_nan

theorem threshold_ne_nan : phi * v ≠ .nan := Number.mul_ne_nan h.confidence h.variance

theorem atMost_zero_threshold : Number.atMost 0 (phi * v) = true :=
  Number.atMost_zero_mul (Number.atMost_of_less h.confidence_pos) h.variance_nonneg
    h.threshold_ne_nan

theorem less_zero_divisor (hne : divisor v phi ≠ .nan) (hzero : (divisor v phi).same 0 = false) :
    Number.less 0 (divisor v phi) = true := by
  have hfour : (4 * phi : Single) ≠ .nan := Number.mul_ne_nan (by decide) h.confidence
  have hnonneg := Number.atMost_zero_mul
    (h.atMost_zero_phi_mul (x := 4) (by decide) hfour) h.variance_nonneg hne
  obtain ⟨a, b, ha, hb, hab⟩ := Number.atMost_iff.mp hnonneg
  refine Number.less_iff.mpr ⟨a, b, ha, hb, lt_of_le_of_ne hab ?_⟩
  rintro rfl
  have hsame : (divisor v phi).same 0 = true := Number.same_iff.mpr ⟨a, hb, ha⟩
  rw [hzero] at hsame
  cases hsame

/-- A step size above zero has a numerator above zero: the root is above `linear`. -/
theorem root_of_size_pos (hpos : Number.less 0 (size m v phi).1 = true) :
    (linear m phi).less (discriminant m v phi).sqrt = true ∧ (divisor v phi).isFinite = true := by
  obtain ⟨hdivisor, hd⟩ := solvable_of_size_pos hpos
  rw [size_of_solvable hdivisor hd] at hpos
  have hne : divisor v phi ≠ .nan := by
    intro hnan
    rw [hnan, Number.div_nan] at hpos
    cases hpos
  obtain ⟨hnumerator, hfinite⟩ := Number.of_less_zero_div (h.less_zero_divisor hne hdivisor) hpos
  rw [Number.add_comm] at hnumerator
  exact ⟨(Number.less_zero_sub _ (linear m phi)).symm.trans hnumerator, hfinite⟩

end Sound

/-- The square that the discriminant begins with overflows, and nothing else of the step does. -/
structure SquareOverflows (m v phi : Single) : Prop where
  linear_finite : (linear m phi).isFinite = true
  square_infinite : (linear m phi * linear m phi).isFinite = false
  deduction_finite : (deduction m v phi).isFinite = true
  divisor_finite : (divisor v phi).isFinite = true
  divisor_ne_zero : (divisor v phi).same 0 = false

namespace SquareOverflows

theorem discriminant_eq_infinite (h : SquareOverflows m v phi) : discriminant m v phi = .infinite false := by
  obtain ⟨s, r, hr⟩ := Number.isFinite_iff.mp h.deduction_finite
  rw [discriminant_eq, Number.mul_self_eq_infinite h.linear_finite h.square_infinite, hr]
  rfl

theorem size_eq_infinite (h : SquareOverflows m v phi) (hsound : Sound m v phi) :
    (size m v phi).1 = .infinite false := by
  have hd := h.discriminant_eq_infinite
  have hsign : Number.atMost 0 (discriminant m v phi) = true := by
    rw [hd]
    exact Number.atMost_infinite (by decide)
  obtain ⟨s, a, ha⟩ := Number.isFinite_iff.mp h.linear_finite
  obtain ⟨t, b, hb⟩ := Number.isFinite_iff.mp h.divisor_finite
  have hpos := hsound.less_zero_divisor (Number.ne_nan_of_isFinite h.divisor_finite) h.divisor_ne_zero
  rw [hb] at hpos
  obtain ⟨rfl, -⟩ := Number.less_zero_finite_iff.mp hpos
  rw [size_of_solvable h.divisor_ne_zero hsign, hd, ha, hb]
  rfl

end SquareOverflows

section
variable (h : Sound m v phi) (hconfident : (phi * v).atMost m = true)
include h hconfident

theorem atMost_one_linear (hne : linear m phi ≠ .nan) : Number.atMost 1 (linear m phi) = true := by
  have hmargin : Number.atMost 0 m = true := Number.atMost_trans h.atMost_zero_threshold hconfident
  have hterm : 2 * phi * m ≠ .nan := by
    intro hnan
    rw [linear, hnan, Number.add_nan] at hne
    exact hne rfl
  exact Number.atMost_add_self
    (Number.atMost_zero_mul h.atMost_zero_two_phi hmargin hterm) hne

theorem atMost_zero_deduction (hne : deduction m v phi ≠ .nan) : Number.atMost 0 (deduction m v phi) = true := by
  have hmargin : m - phi * v ≠ .nan := Number.sub_ne_nan h.margin h.threshold_ne_nan
  refine Number.atMost_zero_mul h.atMost_zero_eight_phi ?_ hne
  rw [Number.atMost_zero_sub hmargin]
  exact hconfident

/-- As long as the square is finite, its root and all the more that of the discriminant is not above `linear`. -/
theorem atMost_sqrt_discriminant (hfinite : (linear m phi * linear m phi).isFinite = true)
    (hd : Number.atMost 0 (discriminant m v phi) = true) :
    (discriminant m v phi).sqrt.atMost (linear m phi) = true := by
  have hne : discriminant m v phi ≠ .nan := (Number.ne_nan_of_atMost hd).2
  have hlinear := Number.ne_nan_of_isFinite (Number.isFinite_of_mul hfinite).1
  have hdeduction : deduction m v phi ≠ .nan := by
    intro hnan
    rw [discriminant_eq, hnan] at hne
    exact hne (Number.add_nan _)
  have hle : (discriminant m v phi).atMost (linear m phi * linear m phi) = true :=
    Number.sub_self_atMost (atMost_zero_deduction h hconfident hdeduction) hne
  exact Number.atMost_trans (Number.atMost_sqrt hd hle)
    (Number.atMost_sqrt_mul_self two_stride_le_one_single (atMost_one_linear h hconfident hlinear) hfinite)

theorem squareOverflows_of_size_pos (hpos : Number.less 0 (size m v phi).1 = true) : SquareOverflows m v phi := by
  obtain ⟨hdivisor, hd⟩ := solvable_of_size_pos hpos
  obtain ⟨hroot, hfinite⟩ := h.root_of_size_pos hpos
  have hone := atMost_one_linear h hconfident (Number.ne_nan_of_less hroot).1
  have hlinear : (linear m phi).isFinite = true :=
    Number.isFinite_of_less (Number.atMost_trans zero_atMost_one hone) hroot
  have hsquare : (linear m phi * linear m phi).isFinite = false := by
    refine Bool.eq_false_iff.mpr fun hsquare => ?_
    have hle := atMost_sqrt_discriminant h hconfident hsquare hd
    have := Number.less_of_less_of_atMost hroot hle
    rw [Number.less_irrefl] at this
    cases this
  refine ⟨hlinear, hsquare, ?_, hfinite, hdivisor⟩
  -- an infinite deduction makes the discriminant undefined
  have hd' := (Number.ne_nan_of_atMost hd).2
  rw [discriminant_eq, Number.mul_self_eq_infinite hlinear hsquare] at hd'
  have hne : deduction m v phi ≠ .nan := by
    intro hnan
    rw [hnan] at hd'
    exact hd' (Number.add_nan _)
  rcases Number.eq_infinite_or_finite (atMost_zero_deduction h hconfident hne)
    with hdeduction | ⟨s, r, hdeduction⟩
  · rw [hdeduction] at hd'
    exact absurd rfl hd'
  · rw [hdeduction]
    rfl

/-- A confident example gets a step above zero only where the square overflows; the step is infinite there. -/
theorem size_pos_iff_of_confident :
    (Number.less 0 (size m v phi).1 = true ↔ SquareOverflows m v phi) ∧
      (SquareOverflows m v phi → (size m v phi).1 = .infinite false) := by
  have hinfinite : SquareOverflows m v phi → (size m v phi).1 = .infinite false := fun hover =>
    hover.size_eq_infinite h
  refine ⟨⟨squareOverflows_of_size_pos h hconfident, fun hover => ?_⟩, hinfinite⟩
  rw [hinfinite hover]
  decide

end

theorem size_not_pos_of_margin_ten :
    Sound 10 (1 / 10) 1 ∧ (1 * (1 / 10) : Single).atMost 10 = true ∧
      Number.less 0 (size 10 (1 / 10) 1).1 = false := by
  have hsound : Sound 10 (1 / 10) 1 := by decide
  have hconfident : (1 * (1 / 10) : Single).atMost 10 = true := by decide
  refine ⟨hsound, hconfident, Bool.eq_false_iff.mpr fun hpos => ?_⟩
  have hover := (size_pos_iff_of_confident hsound hconfident).1.mp hpos
  exact absurd hover.square_infinite (by decide)

/-- The square of a margin of `10 ^ 19` overflows. -/
theorem size_pos_of_confident :
    Sound 10000000000000000000 1 1 ∧ (1 * 1 : Single).atMost 10000000000000000000 = true ∧
      Number.less 0 (size 10000000000000000000 1 1).1 = true :=
  ⟨by decide, by decide, by decide⟩

end OnlineLearning.Step
