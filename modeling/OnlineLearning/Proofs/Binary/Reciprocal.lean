import OnlineLearning.Proofs.Binary.Halfway
import OnlineLearning.Proofs.Binary.Products

/-!
# Reciprocals of reciprocals

A rounded reciprocal need not come back: `1 / (1 / x)` may be above `x`. It is above by one place at most
(`reciprocal_reciprocal_le`), as long as `1 / x` has a full significand, and it is not above at all once
`1 / x` has been raised by a single place (`reciprocal_le_of_lt`): the half way point above the rounded
reciprocal is already beyond the exact one.
-/

namespace OnlineLearning

namespace Format
variable (F : Format) {r p : Nat}

theorem reciprocal_pos (hroom : F.units F.top ≤ F.one * F.one) (hr : 0 < r) (h : r < F.top) : 0 < F.reciprocal r := by
  refine F.le_nearest (F.units_pos hr) ?_
  rw [F.units_of_lt (by have := F.stride_pos; omega), Nat.one_mul]
  exact Nat.le_trans (Nat.le_of_lt (F.units_lt_of_lt h)) hroom

/-- The reciprocal of anything above the rounded reciprocal is not above the number. -/
theorem reciprocal_le_of_lt (hr : 0 < r) (h : F.reciprocal r < p) : F.reciprocal p ≤ r := by
  have hhalf : 2 * (F.one * F.one) ≤
      (F.units (F.reciprocal r) + F.units (F.reciprocal r + 1)) * F.units r :=
    F.two_mul_le_nearest (F.units_pos hr)
  have hlow := F.units_le_iff.mpr (Nat.le_of_lt h)
  have hhigh := F.units_le_iff.mpr (show F.reciprocal r + 1 ≤ p from h)
  refine F.nearest_le (F.units_pos (Nat.zero_lt_of_lt h)) ?_
  have hsum : 2 * (F.one * F.one) ≤ 2 * (F.units r * F.units p) :=
    calc 2 * (F.one * F.one) ≤ (F.units (F.reciprocal r) + F.units (F.reciprocal r + 1)) * F.units r := hhalf
      _ ≤ (F.units p + F.units p) * F.units r := Nat.mul_le_mul_right _ (Nat.add_le_add hlow hhigh)
      _ = 2 * (F.units r * F.units p) := by ring
  omega

/-- Going to the reciprocal and back loses one place at most. -/
theorem reciprocal_reciprocal_le (hr : 0 < r) (h : F.stride ≤ F.reciprocal r) :
    F.reciprocal (F.reciprocal r) ≤ r + 1 := by
  have habove : F.one * F.one * (2 * F.stride) ≤
      F.units (F.reciprocal r) * (2 * F.stride + 1) * F.units r :=
    F.mul_le_units_nearest (F.units_pos hr) h
  have hstep : (2 * F.stride + 1) * F.units r ≤ F.units (r + 1) * (2 * F.stride) := by
    have hspace : F.units r < F.space r * (2 * F.stride) := F.units_lt_space_mul r
    calc (2 * F.stride + 1) * F.units r = F.units r * (2 * F.stride) + F.units r := by ring
      _ ≤ F.units r * (2 * F.stride) + F.space r * (2 * F.stride) := Nat.add_le_add_left (Nat.le_of_lt hspace) _
      _ = F.units (r + 1) * (2 * F.stride) := by rw [F.units_succ, Nat.add_mul]
  refine F.nearest_le (F.units_pos (Nat.lt_of_lt_of_le F.stride_pos h)) ?_
  refine Nat.le_of_mul_le_mul_right (c := 2 * F.stride) ?_ (by have := F.stride_pos; omega)
  calc F.one * F.one * (2 * F.stride) ≤ F.units (F.reciprocal r) * (2 * F.stride + 1) * F.units r := habove
    _ = F.units (F.reciprocal r) * ((2 * F.stride + 1) * F.units r) := Nat.mul_assoc ..
    _ ≤ F.units (F.reciprocal r) * (F.units (r + 1) * (2 * F.stride)) := Nat.mul_le_mul_left _ hstep
    _ = F.units (r + 1) * F.units (F.reciprocal r) * (2 * F.stride) := by ring

end Format

namespace Number
variable {F : Format} {c y : Number F}

theorem exists_rank_of_less_zero (hc : Number.less 0 c = true) (hfinite : c.isFinite = true) :
    ∃ r : Fin F.top, 0 < r.val ∧ c = finite false r := by
  obtain ⟨s, r, rfl⟩ := isFinite_iff.mp hfinite
  obtain ⟨rfl, hr⟩ := less_zero_finite_iff.mp hc
  exact ⟨r, Nat.pos_of_ne_zero hr, rfl⟩

section
variable (hone : F.rankOne < F.top) {r : Fin F.top} (hr : 0 < r.val)
include hone hr

/-- A finite sum with a reciprocal, the other term without a minus sign. -/
theorem exists_rank_one_div_add (hy : y.HasSign false) (hsum : (1 / finite false r + y).isFinite = true) :
    ∃ q : Fin F.top, F.reciprocal r ≤ q ∧ 1 / finite false r + y = finite false q := by
  rw [one_div_finite hone hr, ← ofRank_min] at hsum ⊢
  rcases ofRank_add (Nat.min_le_right (F.reciprocal r) F.top) hy with h | ⟨q, hq, h⟩
  · rw [h] at hsum
    cases hsum
  · rw [h] at hsum ⊢
    have hlt : q < F.top := isFinite_ofRank.mp hsum
    exact ⟨⟨q, hlt⟩, by show _ ≤ q; omega, ofRank_of_lt hlt⟩

/-- The reciprocal of a raised reciprocal is not above the number it started from. -/
theorem one_div_one_div_add_atMost (hy : y.HasSign false) (hsum : (1 / finite false r + y).isFinite = true)
    (hne : 1 / finite false r + y ≠ 1 / finite false r) :
    (1 / (1 / finite false r + y)).atMost (finite false r) = true := by
  obtain ⟨q, hq, h⟩ := exists_rank_one_div_add hone hr hy hsum
  have hlt : F.reciprocal r < q := by
    refine Nat.lt_of_le_of_ne hq fun heq => hne ?_
    rw [h, one_div_finite hone hr, heq, ofRank_of_lt q.isLt]
  have hle := F.reciprocal_le_of_lt hr hlt
  rw [h, one_div_finite hone (Nat.zero_lt_of_lt hlt), ← ofRank_of_lt r.isLt]
  exact ofRank_atMost_iff.mpr (by omega)

/-- Going to the reciprocal and back, a number passes at most its next one. -/
theorem one_div_one_div_atMost {d : Number F} (hstride : F.stride < F.top)
    (hfull : (ofRank false F.stride).atMost (1 / finite false r) = true) (hd : (finite false r).less d = true) :
    (1 / (1 / finite false r)).atMost d = true := by
  obtain ⟨a, b, ha, hb, hab⟩ := less_iff.mp hd
  obtain rfl : (r : Int) = a := Option.some.inj ha
  rw [one_div_finite hone hr] at hfull ⊢
  have hp : F.stride ≤ F.reciprocal r := by
    have := ofRank_atMost_iff.mp hfull
    omega
  rcases Nat.lt_or_ge (F.reciprocal r) F.top with hlt | hge
  · have hback := F.reciprocal_reciprocal_le hr hp
    rw [ofRank_of_lt hlt, one_div_finite hone (Nat.lt_of_lt_of_le F.stride_pos hp)]
    have hle : ((min (F.reciprocal (F.reciprocal r)) F.top : Nat) : Int) ≤ b := by omega
    exact atMost_iff.mpr ⟨_, b, order?_ofRank_false _, hb, hle⟩
  · rw [ofRank, dif_neg (Nat.not_lt.mpr hge), one_div_infinite hone]
    exact atMost_iff.mpr ⟨_, b, order?_ofRank_false 0, hb, by omega⟩

theorem less_zero_one_div (hroom : F.units F.top ≤ F.one * F.one) : Number.less 0 (1 / finite false r) = true := by
  have hrank : 0 < F.reciprocal r := F.reciprocal_pos hroom hr r.isLt
  have htop : 0 < F.top := Nat.zero_lt_of_lt r.isLt
  rw [one_div_finite hone hr]
  exact less_zero_iff.mpr ⟨_, order?_ofRank_false _, by omega⟩

end

end Number

end OnlineLearning
