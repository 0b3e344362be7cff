import OnlineLearning.Proofs.Binary.Halfway
import OnlineLearning.Proofs.Binary.Products

/-!
# How far finite results are off

A finite result is rounded from an exact one on the magnitudes of its operands (`magnitude_mul`,
`magnitude_add_of_units?`, `magnitude_sub_of_units?`), so it is off by one part in `2 * stride` at most,
products down to the numbers with a full significand. Nothing is lost on a product with a power of two
(`magnitude_two_pow_mul`).
-/

namespace OnlineLearning

namespace Format
variable (F : Format)

theorem stride_le_units_iff {r : Nat} : F.stride ≤ F.units r ↔ F.stride ≤ r := by
  have hs := F.stride_pos
  have hunits : F.units F.stride = F.stride := F.units_of_lt (by omega)
  rw [← F.units_le_iff (r := F.stride) (s := r), hunits]

theorem exists_units_mul_two_pow (r i : Nat) : ∃ s, F.units s = 2 ^ i * F.units r := by
  obtain ⟨k, hk, -, hr⟩ := F.exists_significand_space r
  obtain ⟨s, hs⟩ := F.exists_units_eq (r / F.stride - 1 + i) (k := k) (by omega)
  refine ⟨s, ?_⟩
  rw [hs, hr, space, Nat.shiftLeft_eq, Nat.pow_add]
  ring

theorem units_nearest_two_pow_mul (r i : Nat) : F.units (F.nearest (2 ^ i * F.units r) 1) = 2 ^ i * F.units r := by
  obtain ⟨s, hs⟩ := F.exists_units_mul_two_pow r i
  rw [← hs, F.nearest_units]

theorem units_add_stride {r : Nat} (h : F.stride ≤ r) : F.units (r + F.stride) = 2 * F.units r := by
  obtain ⟨q, t, ht, rfl⟩ := (F.lt_stride_or_full r).resolve_left (Nat.not_lt.mpr h)
  have hrank : (q + 1) * F.stride + t + F.stride = (q + 1 + 1) * F.stride + t := by rw [Nat.succ_mul (q + 1)]; omega
  rw [hrank, F.units_full (q + 1) ht, F.units_full q ht, Nat.shiftLeft_eq, Nat.shiftLeft_eq, Nat.pow_succ]
  ring

theorem nearest_two_mul {num den : Nat} (hd : 0 < den) (h : F.stride ≤ num / den) :
    F.nearest (2 * num) den = F.nearest num den + F.stride := by
  have hp := F.precision_pos
  have hne : num / den ≠ 0 := by have := F.stride_pos; omega
  have hfull : F.precision - 1 ≤ (num / den).log2 := by
    rw [Nat.le_log2 hne, ← Nat.one_shiftLeft]
    exact h
  have hdouble : (2 * num / den).log2 = (num / den).log2 + 1 := by
    have hlow := Nat.log2_self_le hne
    have hhigh : num / den < 2 ^ ((num / den).log2 + 1) := Nat.lt_log2_self
    have hlow' : 2 * (num / den) ≤ 2 * num / den := by
      rw [Nat.le_div_iff_mul_le hd, Nat.mul_assoc]
      exact Nat.mul_le_mul_left 2 (Nat.div_mul_le_self num den)
    have hhigh' : 2 * num / den < 2 * (num / den + 1) := by
      rw [Nat.div_lt_iff_lt_mul hd, Nat.mul_assoc]
      exact Nat.mul_lt_mul_of_pos_left (Nat.lt_mul_of_div_lt (Nat.lt_succ_self _) hd) (by decide)
    rw [Nat.log2_eq_iff (by omega), Nat.pow_succ, Nat.pow_succ 2 (_ + 1)]
    omega
  have hexponent : (2 * num / den).log2 + 1 - F.precision = (num / den).log2 + 1 - F.precision + 1 := by omega
  have hpos : 0 < den * 2 ^ ((num / den).log2 + 1 - F.precision) := Nat.mul_pos hd (Nat.two_pow_pos _)
  simp only [nearest, hexponent, Nat.shiftLeft_eq, Nat.pow_succ]
  rw [Nat.mul_comm 2 num, ← Nat.mul_assoc den, nearestEven_scale _ _ (by decide), Nat.succ_mul]
  omega

theorem units_nearest_four_mul {num den : Nat} (hd : 0 < den) (h : F.stride ≤ num / den) :
    F.units (F.nearest (4 * num) den) = 4 * F.units (F.nearest num den) := by
  have hrank : F.stride ≤ F.nearest num den := by
    refine F.le_nearest hd ?_
    rw [F.units_of_lt (by have := F.stride_pos; omega)]
    exact (Nat.le_div_iff_mul_le hd).mp h
  have htwice : F.stride ≤ 2 * num / den :=
    Nat.le_trans h (Nat.div_le_div_right (Nat.le_mul_of_pos_left num (by decide)))
  have hfour : 4 * num = 2 * (2 * num) := by omega
  rw [hfour, F.nearest_two_mul hd htwice, F.nearest_two_mul hd h, F.units_add_stride (by omega),
    F.units_add_stride hrank]
  omega

end Format

namespace Number
variable {F : Format} {x y : Number F}

/-! ### Magnitudes and the order -/

theorem exists_finite_of_units? {a : Int} (h : x.units? = some a) :
    ∃ s r, x = finite s r ∧ signedUnits F s r = a := by
  rcases x with _ | s | ⟨s, r⟩
  · cases h
  · cases h
  · exact ⟨s, r, rfl, Option.some.inj h⟩

theorem units?_eq_magnitude (hx : x.isFinite = true) (h : Number.atMost 0 x = true) :
    x.units? = some (x.magnitude : Int) := by
  obtain ⟨s, r, rfl⟩ := isFinite_iff.mp hx
  show some (signedUnits F s r) = some (F.units r : Int)
  rcases atMost_zero_finite_iff.mp h with rfl | h0
  · rfl
  · cases s <;> simp [signedUnits, h0]

theorem units?_neg (x : Number F) : (-x).units? = x.units?.map fun a => -a := by
  rcases x with _ | s | ⟨s, r⟩
  · rfl
  · rfl
  · show some (signedUnits F (!s) r) = some (-signedUnits F s r)
    rw [signedUnits_not]

theorem units?_eq_neg_magnitude (hx : x.isFinite = true) (h : x.atMost 0 = true) :
    x.units? = some (-(x.magnitude : Int)) := by
  have hneg : (-x).units? = some (x.magnitude : Int) := by
    rw [← magnitude_neg x]
    refine units?_eq_magnitude ?_ (by rwa [atMost_zero_neg])
    obtain ⟨s, r, rfl⟩ := isFinite_iff.mp hx
    rfl
  rw [← neg_neg x, units?_neg, hneg, neg_neg]
  rfl

theorem less_iff_units? {a b : Int} (ha : x.units? = some a) (hb : y.units? = some b) :
    x.less y = true ↔ a < b := by
  obtain ⟨s, r, rfl, rfl⟩ := exists_finite_of_units? ha
  obtain ⟨t, q, rfl, rfl⟩ := exists_finite_of_units? hb
  exact less_finite_iff

theorem atMost_iff_units? {a b : Int} (ha : x.units? = some a) (hb : y.units? = some b) :
    x.atMost y = true ↔ a ≤ b := by
  obtain ⟨s, r, rfl, rfl⟩ := exists_finite_of_units? ha
  obtain ⟨t, q, rfl, rfl⟩ := exists_finite_of_units? hb
  exact atMost_finite_iff

theorem magnitude_pos [F.HasZero] (h : Number.less 0 x = true) : 0 < x.magnitude := by
  rcases x with _ | s | ⟨s, a⟩
  · exact absurd rfl (ne_nan_of_less h).2
  · exact F.units_pos F.top_pos
  · exact F.units_pos (Nat.pos_of_ne_zero (less_zero_finite_iff.mp h).2)

theorem less_zero_of_magnitude_pos [F.HasZero] (h : Number.atMost 0 x = true) (hpos : 0 < x.magnitude) :
    Number.less 0 x = true := by
  rcases eq_infinite_or_finite h with rfl | ⟨s, a, rfl⟩
  · exact less_zero_infinite_iff.mpr rfl
  · have ha : a.val ≠ 0 := by
      intro h0
      change 0 < F.units a at hpos
      rw [h0, F.units_zero] at hpos
      exact absurd hpos (Nat.lt_irrefl 0)
    exact less_zero_finite_iff.mpr ⟨(atMost_zero_finite_iff.mp h).resolve_right ha, ha⟩

theorem magnitude_le_of_atMost [F.HasZero] (hx : Number.atMost 0 x = true) (h : x.atMost y = true) :
    x.magnitude ≤ y.magnitude := by
  cases hy : y.isFinite with
  | false =>
    rw [magnitude_of_not_finite hy]
    exact magnitude_le_top x
  | true =>
    have hfinite : x.isFinite = true := by
      rcases eq_infinite_or_finite hx with rfl | ⟨s, a, rfl⟩
      · rw [eq_infinite_of_atMost h] at hy
        cases hy
      · rfl
    have hle := (atMost_iff_units? (units?_eq_magnitude hfinite hx) (units?_eq_magnitude hy (atMost_trans hx h))).mp h
    omega

theorem atMost_of_magnitude_le [F.HasZero] (hx : Number.atMost 0 x = true) (hfinite : x.isFinite = true)
    (hy : Number.atMost 0 y = true) (h : x.magnitude ≤ y.magnitude) : x.atMost y = true := by
  rcases eq_infinite_or_finite hy with rfl | ⟨s, a, rfl⟩
  · exact atMost_infinite (ne_nan_of_isFinite hfinite)
  · exact (atMost_iff_units? (units?_eq_magnitude hfinite hx) (units?_eq_magnitude rfl hy)).mpr (by omega)

theorem mul_atMost_finite {r : Fin F.top} (hx : x.isFinite = true) (hy : y.isFinite = true)
    (h : x.magnitude * y.magnitude ≤ F.units r * F.one) : (x * y).atMost (finite false r) = true := by
  obtain ⟨s, a, rfl⟩ := isFinite_iff.mp hx
  obtain ⟨t, b, rfl⟩ := isFinite_iff.mp hy
  have hle : F.nearest (F.units a * F.units b) F.one ≤ r := F.nearest_le F.one_pos h
  rw [finite_mul_finite]
  refine atMost_iff.mpr ⟨_, _, order?_ofRank .., rfl, ?_⟩
  cases (s != t) <;> simp <;> omega

/-! ### Results -/

theorem magnitude_mul (h : (x * y).isFinite = true) :
    (x * y).magnitude = F.units (F.nearest (x.magnitude * y.magnitude) F.one) := by
  obtain ⟨hx, hy⟩ := isFinite_of_mul h
  obtain ⟨s, r, rfl⟩ := isFinite_iff.mp hx
  obtain ⟨t, q, rfl⟩ := isFinite_iff.mp hy
  have hlt := isFinite_iff_magnitude.mp h
  rw [finite_mul_finite, magnitude_ofRank] at hlt ⊢
  exact Nat.min_eq_left (by omega)

theorem magnitude_add_of_units? {a b : Int} (ha : x.units? = some a) (hb : y.units? = some b)
    (h : (x + y).isFinite = true) : (x + y).magnitude = F.units (F.nearest (a + b).natAbs 1) := by
  obtain ⟨s, r, rfl, rfl⟩ := exists_finite_of_units? ha
  obtain ⟨t, q, rfl, rfl⟩ := exists_finite_of_units? hb
  have hlt := isFinite_iff_magnitude.mp h
  rw [finite_add_finite, magnitude_roundUnits] at hlt ⊢
  exact Nat.min_eq_left (by omega)

theorem magnitude_sub_of_units? {a b : Int} (ha : x.units? = some a) (hb : y.units? = some b)
    (h : (x - y).isFinite = true) : (x - y).magnitude = F.units (F.nearest (a - b).natAbs 1) :=
  magnitude_add_of_units? (y := -y) ha (by rw [units?_neg, hb]; rfl) h

theorem order?_add {a b : Int} (ha : x.units? = some a) (hb : y.units? = some b) :
    (x + y).order? = some (F.place (a + b)) := by
  obtain ⟨s, r, rfl, rfl⟩ := exists_finite_of_units? ha
  obtain ⟨t, q, rfl, rfl⟩ := exists_finite_of_units? hb
  rw [finite_add_finite, order?_roundUnits]

theorem le_magnitude_sub (hx : x.atMost 0 = true) (hy : Number.atMost 0 y = true) :
    x.magnitude ≤ (x - y).magnitude ∧ y.magnitude ≤ (x - y).magnitude := by
  cases h : (x - y).isFinite with
  | false =>
    rw [magnitude_of_not_finite h]
    exact ⟨magnitude_le_top x, magnitude_le_top y⟩
  | true =>
    obtain ⟨hxfinite, hyfinite⟩ := isFinite_of_sub h
    rw [magnitude_sub_of_units? (units?_eq_neg_magnitude hxfinite hx) (units?_eq_magnitude hyfinite hy) h]
    have habs : (-(x.magnitude : Int) - y.magnitude).natAbs = x.magnitude + y.magnitude := by omega
    rw [habs]
    obtain ⟨s, r, rfl⟩ := isFinite_iff.mp hxfinite
    obtain ⟨t, q, rfl⟩ := isFinite_iff.mp hyfinite
    exact ⟨F.units_le_iff.mpr (F.le_nearest Nat.one_pos (by show F.units r * 1 ≤ F.units r + F.units q; omega)),
      F.units_le_iff.mpr (F.le_nearest Nat.one_pos (by show F.units q * 1 ≤ F.units r + F.units q; omega))⟩

theorem magnitude_mul_le_mul {x' y' : Number F} (hx : x.isFinite = true) (hy : y.isFinite = true)
    (h : x.magnitude * y.magnitude ≤ x'.magnitude * y'.magnitude) : (x * y).magnitude ≤ (x' * y').magnitude := by
  cases hfinite : (x' * y').isFinite with
  | false =>
    rw [magnitude_of_not_finite hfinite]
    exact magnitude_le_top _
  | true =>
    obtain ⟨s, r, rfl⟩ := isFinite_iff.mp hx
    obtain ⟨t, q, rfl⟩ := isFinite_iff.mp hy
    rw [magnitude_mul hfinite, finite_mul_finite, magnitude_ofRank]
    exact Nat.le_trans (Nat.min_le_left ..)
      (F.units_le_iff.mpr (F.nearest_mono F.one_pos F.one_pos (Nat.mul_le_mul_right F.one h)))

theorem magnitude_mul_le_units {r : Nat} (hx : x.isFinite = true) (hy : y.isFinite = true)
    (h : x.magnitude * y.magnitude ≤ F.units r * F.one) : (x * y).magnitude ≤ F.units r := by
  obtain ⟨s, a, rfl⟩ := isFinite_iff.mp hx
  obtain ⟨t, b, rfl⟩ := isFinite_iff.mp hy
  exact magnitude_round_le F.one_pos h

theorem units_le_magnitude_mul {r : Nat} (hr : F.units r ≤ F.units F.top)
    (h : F.units r * F.one ≤ x.magnitude * y.magnitude) : F.units r ≤ (x * y).magnitude := by
  cases hfinite : (x * y).isFinite with
  | false => rwa [magnitude_of_not_finite hfinite]
  | true =>
    rw [magnitude_mul hfinite]
    exact F.units_le_iff.mpr (F.le_nearest F.one_pos h)

/-- Four times a product, or more, is rounded to four times the magnitude or more, up to the end of the format. -/
theorem four_mul_le_magnitude_mul {x' y' : Number F} (hx : x.isFinite = true) (hy : y.isFinite = true)
    (hfull : F.stride < (x * y).magnitude) (h : 4 * (x.magnitude * y.magnitude) ≤ x'.magnitude * y'.magnitude) :
    min (4 * (x * y).magnitude) (F.units F.top) ≤ (x' * y').magnitude := by
  cases hfinite : (x' * y').isFinite with
  | false =>
    rw [magnitude_of_not_finite hfinite]
    exact Nat.min_le_right ..
  | true =>
    obtain ⟨s, r, rfl⟩ := isFinite_iff.mp hx
    obtain ⟨t, q, rfl⟩ := isFinite_iff.mp hy
    have hrank := F.nearest_mono F.one_pos F.one_pos (Nat.mul_le_mul_right F.one h)
    have hunits := F.units_le_iff.mpr hrank
    rw [magnitude_mul hfinite]
    rw [finite_mul_finite, magnitude_ofRank] at hfull ⊢
    change F.units (F.nearest (4 * (F.units r * F.units q)) F.one) ≤ _ at hunits
    have hquotient : F.stride ≤ F.units r * F.units q / F.one := by
      refine Nat.le_of_not_lt fun hlt => ?_
      have hstride : F.units F.stride = F.stride := F.units_of_lt (by have := F.stride_pos; omega)
      have hle : F.nearest (F.units r * F.units q) F.one ≤ F.stride := by
        refine F.nearest_le F.one_pos ?_
        rw [hstride]
        exact Nat.le_of_lt ((Nat.div_lt_iff_lt_mul F.one_pos).mp hlt)
      have := F.units_le_iff.mpr hle
      omega
    rw [F.units_nearest_four_mul F.one_pos hquotient] at hunits
    omega

/-! ### Errors -/

/-- A product is off by at most one part in `2 * stride`, if its significand is full. -/
theorem magnitude_mul_bounds (h : (x * y).isFinite = true) (hfull : F.stride ≤ (x * y).magnitude) :
    x.magnitude * y.magnitude * (2 * F.stride) ≤ (x * y).magnitude * (2 * F.stride + 1) * F.one ∧
      (x * y).magnitude * (2 * F.stride) * F.one ≤
        x.magnitude * y.magnitude * (2 * F.stride) + (x * y).magnitude * F.one := by
  have hmul := magnitude_mul h
  rw [hmul, F.stride_le_units_iff] at hfull
  rw [hmul]
  exact ⟨F.mul_le_units_nearest F.one_pos hfull, F.units_nearest_mul_le F.one_pos hfull⟩

theorem magnitude_two_pow_mul {i : Nat} (hx : x.magnitude = 2 ^ i * F.one) (h : (x * y).isFinite = true) :
    (x * y).magnitude = 2 ^ i * y.magnitude := by
  have hy := (isFinite_of_mul h).2
  rw [magnitude_mul h, hx]
  obtain ⟨t, q, rfl⟩ := isFinite_iff.mp hy
  have hscale := F.nearest_scale (2 ^ i * F.units q) 1 F.one_pos
  rw [Nat.one_mul, Nat.mul_right_comm] at hscale
  show F.units (F.nearest (2 ^ i * F.one * F.units q) F.one) = 2 ^ i * F.units q
  rw [hscale, F.units_nearest_two_pow_mul]

end Number

end OnlineLearning
