import Mathlib.Data.Nat.Sqrt
import OnlineLearning.Proofs.Binary.Halfway
import OnlineLearning.Proofs.Binary.Products

/-!
# Rounded square roots

A square root is rounded from `twiceRoot`, which compares with even numbers as the exact root does. So roots
keep the order (`atMost_sqrt`). The root of a rounded square is never above the number that was squared
(`nearest_twiceRoot_le`, `atMost_sqrt_mul_self`): the square is at most half a space too great, and a root takes away more than half
of that.
-/

namespace OnlineLearning

theorem floorSqrt_eq_sqrt (n : Nat) : floorSqrt n = Nat.sqrt n := by
  refine Nat.eq_sqrt.mpr ⟨floorSqrt_sq_le n, ?_⟩
  induction n using Nat.strongRecOn with
  | ind n ih =>
    unfold floorSqrt
    split
    · omega
    · have hquarter := ih (n / 4) (by omega)
      dsimp only
      split
      · have hsquare : (2 * floorSqrt (n / 4) + 1 + 1) * (2 * floorSqrt (n / 4) + 1 + 1) =
            4 * ((floorSqrt (n / 4) + 1) * (floorSqrt (n / 4) + 1)) := by ring
        rw [hsquare]
        omega
      · omega

/-- Twice the square root of `n`, with one half for whatever lies between two whole numbers. -/
def twiceRoot (n : Nat) : Nat := 2 * floorSqrt n + if floorSqrt n * floorSqrt n = n then 0 else 1

theorem two_mul_le_twiceRoot_iff {k n : Nat} : 2 * k ≤ twiceRoot n ↔ k * k ≤ n := by
  rw [← Nat.le_sqrt, ← floorSqrt_eq_sqrt, twiceRoot]
  split <;> omega

theorem twiceRoot_le_two_mul_iff {k n : Nat} : twiceRoot n ≤ 2 * k ↔ n ≤ k * k := by
  have hsquare := floorSqrt_sq_le n
  have hlt := Nat.sqrt_lt (m := n) (n := k)
  rw [← floorSqrt_eq_sqrt] at hlt
  unfold twiceRoot
  split
  · rename_i hexact
    constructor
    · intro h
      have := Nat.mul_self_le_mul_self (show floorSqrt n ≤ k by omega)
      omega
    · intro h
      have := Nat.mul_self_le_mul_self_iff.mp (show floorSqrt n * floorSqrt n ≤ k * k by omega)
      omega
  · rename_i hexact
    constructor
    · intro h
      have := hlt.mp (by omega)
      omega
    · intro h
      have := Nat.mul_self_lt_mul_self_iff.mp (show floorSqrt n * floorSqrt n < k * k by omega)
      omega

theorem twiceRoot_mono {m n : Nat} (h : m ≤ n) : twiceRoot m ≤ twiceRoot n := by
  -- whichever way the greater one lies to a whole number, the smaller one does not lie above
  rcases Nat.even_or_odd' (twiceRoot n) with ⟨k, hk | hk⟩
  · rw [hk]
    exact twiceRoot_le_two_mul_iff.mpr (Nat.le_trans h (twiceRoot_le_two_mul_iff.mp (Nat.le_of_eq hk)))
  · rw [hk]
    refine Nat.le_of_not_lt fun hlt => ?_
    have hnext := Nat.le_trans (two_mul_le_twiceRoot_iff.mp (show 2 * (k + 1) ≤ twiceRoot m by omega)) h
    have := two_mul_le_twiceRoot_iff.mpr hnext
    omega

namespace Format
variable (F : Format)

theorem exists_space_eq_two_mul {r : Nat} (h : 2 * F.stride ≤ r) : ∃ k, 0 < k ∧ F.space r = 2 * k := by
  have hq := (Nat.le_div_iff_mul_le F.stride_pos).mpr h
  refine ⟨2 ^ (r / F.stride - 2), Nat.two_pow_pos _, ?_⟩
  rw [space, ← Nat.pow_succ']
  congr 1
  omega

/-- A rounded square is below the square of the half way point above the number. -/
theorem units_nearest_mul_self_lt {r k : Nat} (hr : 2 * F.stride ≤ r) (hone : F.one ≤ F.units r)
    (hk : 0 < k) (hspace : F.space r = 2 * k) :
    F.units (F.nearest (F.units r * F.units r) F.one) * F.one < (F.units r + k) * (F.units r + k) := by
  have hs := F.stride_pos
  have hle : r ≤ F.nearest (F.units r * F.units r) F.one :=
    F.le_nearest F.one_pos (Nat.mul_le_mul_left _ hone)
  obtain ⟨p, hp⟩ := Nat.exists_eq_succ_of_ne_zero (show F.nearest (F.units r * F.units r) F.one ≠ 0 by omega)
  have hhalf := F.nearest_le_two_mul F.one_pos hp
  have hpart := F.space_mul_stride_le (r := p) (by omega)
  have hwidth := F.units_lt_space_mul r
  rw [hp]
  show F.units (p + 1) * F.one < _
  rw [units_succ] at hhalf ⊢
  rw [hspace] at hwidth
  generalize F.units r = R at *
  generalize F.units p = u at *
  generalize F.space p = w at *
  generalize F.one = one at *
  have hbelow : u * one ≤ R * R := by nlinarith
  have hscaled : w * one * F.stride ≤ 4 * k * R * F.stride := by
    calc w * one * F.stride = w * F.stride * one := by ring
      _ ≤ u * one := Nat.mul_le_mul_right _ hpart
      _ ≤ R * R := hbelow
      _ ≤ R * (2 * k * (2 * F.stride)) := Nat.mul_le_mul_left _ (Nat.le_of_lt hwidth)
      _ = 4 * k * R * F.stride := by ring
  have hw : w * one ≤ 4 * k * R := Nat.le_of_mul_le_mul_right hscaled hs
  nlinarith

theorem two_mul_stride_le {r : Nat} (hF : 2 * F.stride ≤ F.one) (hone : F.one ≤ F.units r) : 2 * F.stride ≤ r := by
  have hunits : F.units (2 * F.stride) = 2 * F.stride := by
    have := F.units_stretch (e := 0) (n := 2 * F.stride) (fun h0 => absurd rfl h0) (Nat.le_refl _)
    rwa [Nat.zero_mul, Nat.zero_add, Nat.pow_zero, Nat.mul_one] at this
  rw [← F.units_le_iff, hunits]
  omega

/-- The root of a rounded square is not rounded above the number that was squared. -/
theorem nearest_twiceRoot_le {r : Nat} (hF : 2 * F.stride ≤ F.one) (hone : F.one ≤ F.units r) :
    F.nearest (twiceRoot (F.units (F.nearest (F.units r * F.units r) F.one) * F.one)) 2 ≤ r := by
  have hstride := F.two_mul_stride_le hF hone
  obtain ⟨k, hk, hspace⟩ := F.exists_space_eq_two_mul hstride
  refine F.nearest_le_of_two_mul_lt (by decide) ?_
  have hlt : twiceRoot (F.units (F.nearest (F.units r * F.units r) F.one) * F.one) < 2 * (F.units r + k) := by
    rw [← Nat.not_le, two_mul_le_twiceRoot_iff, Nat.not_le]
    exact F.units_nearest_mul_self_lt hstride hone hk hspace
  rw [F.units_succ, hspace]
  omega

end Format

namespace Number
variable {F : Format} {x y : Number F}

theorem sqrt_zero {s : Bool} {a : Fin F.top} (h : a.val = 0) : (finite s a : Number F).sqrt = finite s a := if_pos h

theorem sqrt_finite {a : Fin F.top} (h : a.val ≠ 0) :
    (finite false a : Number F).sqrt = ofRank false (F.nearest (twiceRoot (F.units a * F.one)) 2) := if_neg h

theorem atMost_zero_sqrt [F.HasZero] (h : Number.atMost 0 x = true) : Number.atMost 0 x.sqrt = true := by
  rcases eq_infinite_or_finite h with rfl | ⟨s, a, rfl⟩
  · exact h
  · by_cases ha : a.val = 0
    · rwa [sqrt_zero ha]
    · obtain rfl := (atMost_zero_finite_iff.mp h).resolve_right ha
      rw [sqrt_finite ha]
      exact atMost_zero_of_hasSign (hasSign_ofRank ..) (ofRank_ne_nan _ _)

theorem atMost_sqrt [F.HasZero] (hx : Number.atMost 0 x = true) (h : x.atMost y = true) :
    x.sqrt.atMost y.sqrt = true := by
  have hy : Number.atMost 0 y = true := atMost_trans hx h
  rcases eq_infinite_or_finite hx with rfl | ⟨s, a, rfl⟩
  · rw [eq_infinite_of_atMost h]
    exact atMost_refl (by simp [sqrt])
  by_cases ha : a.val = 0
  · rw [sqrt_zero ha]
    refine atMost_trans ?_ (atMost_zero_sqrt hy)
    rw [zero_eq]
    exact atMost_iff.mpr ⟨_, _, rfl, order?_ofRank .., by cases s <;> simp [ha]⟩
  obtain rfl := (atMost_zero_finite_iff.mp hx).resolve_right ha
  rw [sqrt_finite ha]
  rcases eq_infinite_or_finite hy with rfl | ⟨t, b, rfl⟩
  · exact atMost_infinite (ofRank_ne_nan _ _)
  · have hab := atMost_finite_iff.mp h
    have hpos := F.units_lt_of_lt (Nat.pos_of_ne_zero ha)
    have hb : t = false ∧ F.units a ≤ F.units b := by
      unfold signedUnits at hab
      cases t <;> simp at hab ⊢ <;> omega
    obtain ⟨rfl, hunits⟩ := hb
    have hb0 : b.val ≠ 0 := by
      intro h0
      rw [h0] at hunits
      omega
    have hmono := F.nearest_mono (by decide) (by decide)
      (Nat.mul_le_mul_right 2 (twiceRoot_mono (Nat.mul_le_mul_right F.one hunits)))
    rw [sqrt_finite hb0]
    exact ofRank_atMost_iff.mpr (by omega)

theorem exists_rank_of_one_atMost (h : Number.atMost 1 x = true) (hfinite : x.isFinite = true) :
    ∃ r : Fin F.top, F.rankOne ≤ r ∧ x = finite false r := by
  obtain ⟨s, r, rfl⟩ := isFinite_iff.mp hfinite
  obtain ⟨a, b, ha, hb, hab⟩ := atMost_iff.mp h
  rw [one_eq, order?_ofRank] at ha
  obtain rfl := Option.some.inj ha
  obtain rfl := Option.some.inj hb
  have hone := F.rankOne_pos
  have hr := r.isLt
  cases s with
  | false => exact ⟨r, by simp only [Bool.false_eq_true, if_false] at hab; omega, rfl⟩
  | true =>
    simp only [Bool.false_eq_true, if_false, if_true] at hab
    omega

theorem eq_one_of_atMost (htop : F.rankOne < F.top) (h : Number.atMost 1 x = true) (h' : x.atMost 1 = true) :
    x = 1 := by
  have hone : (1 : Number F) = finite false ⟨F.rankOne, htop⟩ := by rw [one_eq, ofRank_of_lt htop]
  have hfinite : x.isFinite = true := by
    have : F.HasZero := ⟨Nat.zero_lt_of_lt htop⟩
    rcases x with _ | s | ⟨s, a⟩
    · cases h'
    · rw [hone] at h h'
      cases s with
      | false => cases eq_infinite_of_atMost h'
      | true => cases eq_infinite_of_atMost' h
    · rfl
  obtain ⟨r, hr, rfl⟩ := exists_rank_of_one_atMost h hfinite
  rw [hone] at h' ⊢
  have hle := F.units_le_iff.mp (Int.ofNat_le.mp (atMost_finite_iff.mp h'))
  congr 1
  exact Fin.ext (Nat.le_antisymm hle hr)

/-- The root of a rounded square is not above the number that was squared. -/
theorem atMost_sqrt_mul_self (hF : 2 * F.stride ≤ F.one) (h : Number.atMost 1 x = true)
    (hfinite : (x * x).isFinite = true) : (x * x).sqrt.atMost x = true := by
  obtain ⟨r, hr, rfl⟩ := exists_rank_of_one_atMost h (isFinite_of_mul hfinite).1
  have hone : F.one ≤ F.units r := by
    rw [← F.units_rankOne]
    exact F.units_le_iff.mpr hr
  have hpos : F.nearest (F.units r * F.units r) F.one ≠ 0 := by
    have hle : r ≤ F.nearest (F.units r * F.units r) F.one := F.le_nearest F.one_pos (Nat.mul_le_mul_left _ hone)
    have hstride := F.two_mul_stride_le hF hone
    have := F.stride_pos
    omega
  have htop : F.nearest (F.units r * F.units r) F.one < F.top := by
    refine Nat.lt_of_not_le fun hle => ?_
    rw [finite_mul_finite, ofRank, dif_neg (Nat.not_lt.mpr hle)] at hfinite
    cases hfinite
  have hmul : (finite false r * finite false r : Number F) =
      finite false ⟨F.nearest (F.units r * F.units r) F.one, htop⟩ := ofRank_of_lt htop
  have hplace : (finite false r : Number F) = ofRank false r := (ofRank_of_lt r.isLt).symm
  rw [hmul, sqrt_finite hpos, hplace]
  exact ofRank_atMost_iff.mpr (min_le_min_right _ (F.nearest_twiceRoot_le hF hone))

end Number

end OnlineLearning
