import OnlineLearning.Binary.Rounding

/-! # Binary floating formats

A format lists its finite magnitudes in increasing order; the place of a magnitude in that list is
its rank. All magnitudes are whole multiples of the format's least positive one, its unit, so
`units` gives a rank its exact size and `nearest` finds the rank closest to an exact quotient of
units. Even ranks win ties, which is the same as an even last significand bit. Main statements:
a greater rank is a greater magnitude (`units_lt_iff`), and the nearest magnitude to a magnitude is
itself (`nearest_units`). -/

namespace OnlineLearning

/-- A binary format: significands of `precision` bits, a unit of `2 ^ -scale`, and finite
magnitudes of ranks below `top`. -/
structure Format where
  precision : Nat
  scale : Nat
  top : Nat
  precision_pos : 0 < precision := by decide
deriving DecidableEq

namespace Format

/-- Four-byte numbers. -/
def single : Format := { precision := 24, scale := 149, top := 255 <<< 23 }

/-- Eight-byte numbers. -/
def double : Format := { precision := 53, scale := 1074, top := 2047 <<< 52 }

/-- How many ranks share one power of two. -/
def stride (F : Format) : Nat := 1 <<< (F.precision - 1)

/-- The magnitude of rank `r`, in units. Ranks from `top` on continue the list as if the exponent
had no upper bound. -/
def units (F : Format) (r : Nat) : Nat :=
  let e := r / F.stride - 1
  (r - e * F.stride) <<< e

/-- The rank of the magnitude nearest to `num / den` units. -/
def nearest (F : Format) (num den : Nat) : Nat :=
  let e := (num / den).log2 + 1 - F.precision
  e * F.stride + nearestEven num (den <<< e)

/-- How many units make one. -/
def one (F : Format) : Nat := 1 <<< F.scale

theorem one_pos (F : Format) : 0 < F.one := by
  rw [one, Nat.one_shiftLeft]; exact Nat.two_pow_pos _

theorem stride_pos (F : Format) : 0 < F.stride := by
  rw [stride, Nat.one_shiftLeft]; exact Nat.two_pow_pos _

@[simp] theorem units_zero (F : Format) : F.units 0 = 0 := by
  simp [units]

theorem units_of_lt (F : Format) {r : Nat} (h : r < 2 * F.stride) : F.units r = r := by
  have hd : r / F.stride - 1 = 0 := by
    have : r / F.stride < 2 := Nat.div_lt_of_lt_mul (by rwa [Nat.mul_comm])
    omega
  simp [units, hd]

/-- A rank is below the first with a full significand, or has its place in a stretch of those. -/
theorem lt_stride_or_full (F : Format) (r : Nat) :
    r < F.stride ∨ ∃ q t, t < F.stride ∧ r = (q + 1) * F.stride + t := by
  rcases Nat.lt_or_ge r F.stride with h | h
  · exact .inl h
  · obtain ⟨q, hq⟩ := Nat.exists_eq_succ_of_ne_zero (Nat.ne_of_gt (Nat.div_pos h F.stride_pos))
    refine .inr ⟨q, r % F.stride, Nat.mod_lt r F.stride_pos, ?_⟩
    rw [← Nat.succ_eq_add_one, ← hq, Nat.div_add_mod']

theorem div_stride_full (F : Format) (q : Nat) {t : Nat} (h : t < F.stride) :
    ((q + 1) * F.stride + t) / F.stride = q + 1 := by
  rw [Nat.add_comm, Nat.add_mul_div_right _ _ F.stride_pos, Nat.div_eq_of_lt h, Nat.zero_add]

/-- A rank `q * stride + t` with `q` positive has a full significand, scaled by `q - 1` places. -/
theorem units_full (F : Format) (q : Nat) {t : Nat} (h : t < F.stride) :
    F.units ((q + 1) * F.stride + t) = (F.stride + t) <<< q := by
  have hs : (q + 1) * F.stride + t - q * F.stride = F.stride + t := by
    rw [Nat.succ_mul]; omega
  simp only [units, F.div_stride_full q h, Nat.add_sub_cancel, hs]

theorem units_lt_succ (F : Format) (r : Nat) : F.units r < F.units (r + 1) := by
  have hs := F.stride_pos
  rcases F.lt_stride_or_full r with hr | ⟨q, t, ht, rfl⟩
  · rw [units_of_lt F (by omega), units_of_lt F (by omega)]
    omega
  · rw [units_full F q ht]
    have hp : 0 < 2 ^ q := Nat.two_pow_pos q
    rcases Nat.lt_or_ge (t + 1) F.stride with h | h
    · rw [Nat.add_assoc, units_full F q h, Nat.shiftLeft_eq, Nat.shiftLeft_eq]
      exact Nat.mul_lt_mul_of_pos_right (by omega) hp
    · have e : (q + 1) * F.stride + t + 1 = (q + 1 + 1) * F.stride + 0 := by
        rw [Nat.succ_mul (q + 1)]; omega
      rw [e, units_full F (q + 1) hs, Nat.shiftLeft_eq, Nat.shiftLeft_eq, Nat.pow_succ,
        Nat.mul_comm (2 ^ q) 2, ← Nat.mul_assoc]
      exact Nat.mul_lt_mul_of_pos_right (by omega) hp

theorem units_lt_of_lt (F : Format) {r s : Nat} (h : r < s) : F.units r < F.units s := by
  induction s with
  | zero => omega
  | succ s ih =>
    rcases Nat.lt_succ_iff_lt_or_eq.mp h with h | rfl
    · exact Nat.lt_trans (ih h) (F.units_lt_succ s)
    · exact F.units_lt_succ r

theorem units_lt_iff (F : Format) {r s : Nat} : F.units r < F.units s ↔ r < s := by
  refine ⟨fun h => Nat.lt_of_not_le fun hs => ?_, F.units_lt_of_lt⟩
  rcases Nat.lt_or_eq_of_le hs with hs | rfl
  · exact Nat.lt_asymm h (F.units_lt_of_lt hs)
  · exact Nat.lt_irrefl _ h

theorem units_inj (F : Format) {r s : Nat} : F.units r = F.units s ↔ r = s := by
  refine ⟨fun h => ?_, congrArg _⟩
  rcases Nat.lt_trichotomy r s with hs | rfl | hs
  · exact absurd h (Nat.ne_of_lt (F.units_lt_of_lt hs))
  · rfl
  · exact absurd h.symm (Nat.ne_of_lt (F.units_lt_of_lt hs))

theorem nearest_scale (F : Format) (num den : Nat) {k : Nat} (h : 0 < k) :
    F.nearest (num * k) (den * k) = F.nearest num den := by
  simp only [nearest, Nat.mul_div_mul_right _ _ h, Nat.shiftLeft_eq, Nat.mul_right_comm den k,
    nearestEven_scale _ _ h]

theorem log2_shiftLeft {m p : Nat} (k : Nat) (h : 1 <<< p ≤ m) (h' : m < 1 <<< (p + 1)) :
    (m <<< k).log2 = p + k := by
  rw [Nat.one_shiftLeft] at h h'
  have hm : m <<< k ≠ 0 := by
    rw [Nat.shiftLeft_eq]
    exact Nat.mul_ne_zero (by have := Nat.two_pow_pos p; omega) (Nat.ne_of_gt (Nat.two_pow_pos k))
  rw [Nat.log2_eq_iff hm, Nat.shiftLeft_eq, Nat.pow_add, Nat.add_right_comm, Nat.pow_add]
  exact ⟨Nat.mul_le_mul_right _ h, Nat.mul_lt_mul_of_pos_right h' (Nat.two_pow_pos k)⟩

theorem nearest_units (F : Format) (r : Nat) : F.nearest (F.units r) 1 = r := by
  have hp := F.precision_pos
  have hs := F.stride_pos
  have hst : F.stride = 2 ^ (F.precision - 1) := by rw [stride, Nat.one_shiftLeft]
  have h2 : 2 * F.stride = 2 ^ F.precision := by
    rw [hst, ← Nat.pow_succ']; congr; omega
  rcases Nat.lt_or_ge r (2 * F.stride) with h | h
  · rw [units_of_lt F h, nearest, Nat.div_one]
    have he : r.log2 + 1 - F.precision = 0 := by
      rcases Nat.eq_zero_or_pos r with rfl | hr
      · simp [Nat.log2_zero]; omega
      · have := (Nat.log2_lt (by omega)).mpr (h2 ▸ h)
        omega
    simp only [he, Nat.shiftLeft_zero, nearestEven_one, Nat.zero_mul, Nat.zero_add]
  · obtain ⟨q, t, ht, rfl⟩ := (F.lt_stride_or_full r).resolve_left (by omega)
    rw [units_full F q ht, nearest, Nat.div_one]
    have hl := log2_shiftLeft (m := F.stride + t) (p := F.precision - 1) q
      (by rw [← stride]; omega) (by rw [Nat.sub_add_cancel hp, Nat.one_shiftLeft, ← h2]; omega)
    have he : ((F.stride + t) <<< q).log2 + 1 - F.precision = q := by rw [hl]; omega
    simp only [he]
    rw [Nat.one_shiftLeft, Nat.shiftLeft_eq, nearestEven_mul _ (Nat.two_pow_pos q), Nat.succ_mul]
    omega

end Format

end OnlineLearning
