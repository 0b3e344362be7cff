import Mathlib.Algebra.Group.Nat.Defs
import OnlineLearning.Decimal.Basic
import OnlineLearning.Proofs.Binary.Nearest

/-!
# The size of a decimal

A decimal keeps its size and its nearest magnitude when zeros are put behind its coefficient. The tests of
`Decimal.toNumber` for decimals beyond the range of a format are exact enough: a decimal that comes out as zero
or as an infinity there has a rank that is zero or beyond the top (`toNumber_eq_ofRank`).
-/

namespace OnlineLearning

namespace Text

theorem lt_ten_pow_digitCount (n : Nat) : n < 10 ^ digitCount n := by
  induction n using Nat.strongRecOn with
  | ind n ih =>
    rw [digitCount]
    split
    · rename_i h
      rw [h]
      decide
    · have hlt := ih (n / 10) (by omega)
      rw [Nat.pow_succ]
      omega

theorem ten_pow_digitCount_le {n : Nat} (h : n ≠ 0) : 10 ^ (digitCount n - 1) ≤ n := by
  induction n using Nat.strongRecOn with
  | ind n ih =>
    rw [digitCount, if_neg h, Nat.add_sub_cancel]
    by_cases hn : n / 10 = 0
    · rw [hn, digitCount, if_pos rfl]
      omega
    · have hle := ih (n / 10) (by omega) hn
      obtain ⟨k, hk⟩ : ∃ k, digitCount (n / 10) = k + 1 := by
        rw [digitCount, if_neg hn]
        exact ⟨_, rfl⟩
      rw [hk] at hle ⊢
      rw [Nat.pow_succ]
      rw [Nat.add_sub_cancel] at hle
      omega

theorem digitCount_mul_ten_pow {n : Nat} (h : n ≠ 0) (k : Nat) : digitCount (n * 10 ^ k) = digitCount n + k := by
  induction k with
  | zero => rw [Nat.pow_zero, Nat.mul_one, Nat.add_zero]
  | succ k ih =>
    have hne : n * 10 ^ (k + 1) ≠ 0 := Nat.mul_ne_zero h (Nat.ne_of_gt (Nat.pow_pos (by decide)))
    have hdiv : n * 10 ^ (k + 1) / 10 = n * 10 ^ k := by
      rw [Nat.pow_succ, ← Nat.mul_assoc, Nat.mul_div_cancel _ (by decide)]
    rw [digitCount, if_neg hne, hdiv, ih]
    omega

end Text

namespace Format

theorem units_lt_two_pow (F : Format) (r : Nat) : F.units r < 2 ^ (r / F.stride + F.precision) := by
  have hfull : 2 * F.stride = 2 ^ F.precision := by rw [two_mul_stride, Nat.one_shiftLeft]
  rcases F.lt_stride_or_full r with hr | ⟨q, t, ht, rfl⟩
  · rw [F.units_of_lt (by omega), Nat.div_eq_of_lt hr, Nat.zero_add, ← hfull]
    omega
  · have hpow : 2 ^ q ≤ 2 ^ (q + 1) := Nat.pow_le_pow_right (by decide) (Nat.le_succ q)
    rw [F.units_full q ht, F.div_stride_full q ht, Nat.shiftLeft_eq, Nat.add_comm (q + 1), Nat.pow_add]
    calc (F.stride + t) * 2 ^ q < 2 ^ F.precision * 2 ^ q :=
          Nat.mul_lt_mul_of_pos_right (by omega) (Nat.two_pow_pos q)
      _ ≤ 2 ^ F.precision * 2 ^ (q + 1) := Nat.mul_le_mul_left _ hpow

theorem nearest_eq_zero (F : Format) {num den : Nat} (h : 2 * num < den) : F.nearest num den = 0 := by
  have hdiv : num / den = 0 := Nat.div_eq_of_lt (by omega)
  have hmod : num % den = num := Nat.mod_eq_of_lt (by omega)
  have hprecision := F.precision_pos
  have hexponent : Nat.log2 0 + 1 - F.precision = 0 := by
    rw [Nat.log2_zero]
    omega
  have hlt : 2 * num < den ∨ 2 * num = den ∧ 0 % 2 = 0 := .inl h
  rw [nearest, hdiv, hexponent, Nat.zero_mul, Nat.zero_add, Nat.shiftLeft_zero, nearestEven, hdiv, hmod]
  exact if_pos hlt

end Format

namespace Decimal
variable {F : Format} {d : Decimal}

/-- The same decimal with zeros behind its coefficient. -/
def withZeros (d : Decimal) (k : Nat) : Decimal := ⟨d.coefficient * 10 ^ k, d.exponent - k⟩

theorem denominator_pos (d : Decimal) : 0 < d.denominator := Nat.pow_pos (by decide)

theorem rank_congr {d' : Decimal} (h : d.numerator * d'.denominator = d'.numerator * d.denominator) :
    d.rank F = d'.rank F := by
  rw [rank, rank, ← F.nearest_scale (d.numerator * F.one) d.denominator d'.denominator_pos,
    ← F.nearest_scale (d'.numerator * F.one) d'.denominator d.denominator_pos, Nat.mul_right_comm, h,
    Nat.mul_right_comm, Nat.mul_comm d.denominator]

theorem rank_withZeros (d : Decimal) (k : Nat) : (d.withZeros k).rank F = d.rank F := by
  refine rank_congr ?_
  have hexponents : k + (d.exponent - k).toNat + (-d.exponent).toNat =
      d.exponent.toNat + (-(d.exponent - k)).toNat := by omega
  simp only [numerator, denominator, withZeros, Nat.pow_eq]
  rw [Nat.mul_assoc, Nat.mul_assoc, Nat.mul_assoc, ← Nat.pow_add, ← Nat.pow_add, ← Nat.pow_add,
    ← Nat.add_assoc, hexponents]

theorem size_withZeros (hd : d.coefficient ≠ 0) (k : Nat) : (d.withZeros k).size = d.size := by
  simp only [size, withZeros, Text.digitCount_mul_ten_pow hd]
  omega

/-! ### Decimals in order -/

/-- Whether the value of a decimal is at most that of another. -/
def Le (a b : Decimal) : Prop := a.numerator * b.denominator ≤ b.numerator * a.denominator

/-- Whether the value of a decimal is less than that of another. -/
def Lt (a b : Decimal) : Prop := a.numerator * b.denominator < b.numerator * a.denominator

/-- A power of ten. -/
def power (p : Int) : Decimal := ⟨1, p⟩

theorem rank_mono {a b : Decimal} (h : a.Le b) : a.rank F ≤ b.rank F := by
  refine F.nearest_mono a.denominator_pos b.denominator_pos ?_
  rw [Nat.mul_right_comm, Nat.mul_right_comm b.numerator]
  exact Nat.mul_le_mul_right _ h

theorem lt_power {p : Int} (h : d.size ≤ p) : d.Lt (power p) := by
  have hlt := Text.lt_ten_pow_digitCount d.coefficient
  have hexponents : Text.digitCount d.coefficient + (d.exponent.toNat + (-p).toNat) ≤
      p.toNat + (-d.exponent).toNat := by
    rw [size] at h
    omega
  simp only [Lt, numerator, denominator, power, Nat.pow_eq, Nat.one_mul]
  rw [Nat.mul_assoc, ← Nat.pow_add, ← Nat.pow_add]
  refine Nat.lt_of_lt_of_le ?_ (Nat.pow_le_pow_right (by decide) hexponents)
  rw [Nat.pow_add 10 (Text.digitCount d.coefficient)]
  exact Nat.mul_lt_mul_of_pos_right hlt (Nat.pow_pos (by decide))

theorem power_le {p : Int} (hd : d.coefficient ≠ 0) (h : p < d.size) : (power p).Le d := by
  have hle := Text.ten_pow_digitCount_le hd
  have hexponents : p.toNat + (-d.exponent).toNat ≤
      Text.digitCount d.coefficient - 1 + (d.exponent.toNat + (-p).toNat) := by
    rw [size] at h
    omega
  simp only [Le, numerator, denominator, power, Nat.pow_eq, Nat.one_mul]
  rw [Nat.mul_assoc, ← Nat.pow_add, ← Nat.pow_add]
  refine Nat.le_trans (Nat.pow_le_pow_right (by decide) hexponents) ?_
  rw [Nat.pow_add 10 (Text.digitCount d.coefficient - 1)]
  exact Nat.mul_le_mul_right _ hle

/-! ### Decimals beyond the range of a format -/

theorem rank_eq_zero_of_size_le (hscale : 0 < F.scale) (h : d.size ≤ -F.scale) : d.rank F = 0 := by
  have hlt := lt_power h
  have hpow : 2 * 2 ^ F.scale ≤ 10 ^ F.scale := by
    obtain ⟨k, hk⟩ := Nat.exists_eq_succ_of_ne_zero (Nat.ne_of_gt hscale)
    have hle : 2 ^ k ≤ 10 ^ k := Nat.pow_le_pow_left (by decide) k
    rw [hk, Nat.pow_succ, Nat.pow_succ]
    omega
  have hneg : (-(-(F.scale : Int))).toNat = F.scale := by omega
  have hzero : (-(F.scale : Int)).toNat = 0 := by omega
  simp only [Lt, numerator, denominator, power, Nat.pow_eq, Nat.one_mul, hneg, hzero, Nat.pow_zero] at hlt
  refine F.nearest_eq_zero ?_
  simp only [numerator, denominator, Nat.pow_eq, Format.one, Nat.one_shiftLeft]
  calc 2 * (d.coefficient * 10 ^ d.exponent.toNat * 2 ^ F.scale)
      = d.coefficient * 10 ^ d.exponent.toNat * (2 * 2 ^ F.scale) := Nat.mul_left_comm _ _ _
    _ ≤ d.coefficient * 10 ^ d.exponent.toNat * 10 ^ F.scale := Nat.mul_le_mul_left _ hpow
    _ < 10 ^ (-d.exponent).toNat := hlt

theorem top_le_rank_of_lt_size (hd : d.coefficient ≠ 0) (h : F.top / F.stride + F.precision < d.size) :
    F.top ≤ d.rank F := by
  have hle := power_le (p := (F.top / F.stride + F.precision : Nat)) hd (by omega)
  have hnat : ((F.top / F.stride + F.precision : Nat) : Int).toNat = F.top / F.stride + F.precision := rfl
  have hneg : (-((F.top / F.stride + F.precision : Nat) : Int)).toNat = 0 := by omega
  simp only [Le, numerator, denominator, power, Nat.pow_eq, Nat.one_mul, hnat, hneg, Nat.pow_zero, Nat.mul_one] at hle
  refine F.le_nearest d.denominator_pos ?_
  have hunits : F.units F.top ≤ 10 ^ (F.top / F.stride + F.precision) :=
    Nat.le_trans (Nat.le_of_lt (F.units_lt_two_pow F.top)) (Nat.pow_le_pow_left (by decide) _)
  calc F.units F.top * d.denominator
      ≤ 10 ^ (F.top / F.stride + F.precision) * d.denominator := Nat.mul_le_mul_right _ hunits
    _ ≤ d.numerator := hle
    _ ≤ d.numerator * F.one := Nat.le_mul_of_pos_right _ F.one_pos

/-- The number nearest to a decimal, if that is neither zero nor infinite. -/
theorem toNumber_eq_ofRank (hscale : 0 < F.scale) (hpos : 0 < d.rank F) (htop : d.rank F < F.top) (s : Bool) :
    toNumber F s d = .ofRank s (d.rank F) := by
  have hd : d.coefficient ≠ 0 := by
    intro hzero
    rw [rank, numerator, hzero, Nat.zero_mul, Nat.zero_mul, F.nearest_zero d.denominator_pos] at hpos
    exact Nat.lt_irrefl 0 hpos
  have hlarge : ¬ d.size ≤ -F.scale := fun h => by
    rw [rank_eq_zero_of_size_le hscale h] at hpos
    exact Nat.lt_irrefl 0 hpos
  have hsmall : ¬ d.size > F.top / F.stride + F.precision := fun h =>
    Nat.not_le_of_lt htop (top_le_rank_of_lt_size hd h)
  rw [toNumber, if_neg (not_or.mpr ⟨hd, hlarge⟩), if_neg hsmall]

end Decimal

end OnlineLearning
