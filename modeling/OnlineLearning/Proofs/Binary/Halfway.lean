import Mathlib.Tactic.Linarith
import Mathlib.Tactic.Ring
import OnlineLearning.Proofs.Binary.Nearest

/-!
# How far rounding goes

The next magnitude above rank `r` is `space r` units away, which is at most one part in `stride` of a
magnitude with a full significand. A quotient is rounded to a significand in its stretch of the ranks (`Rounded`),
so it is off from its rounded one by half a space at most, in either direction (`two_mul_le_nearest`,
`nearest_le_two_mul`), and one below the half way point of two neighbours is not rounded above the lower one
(`nearest_le_of_two_mul_lt`). A quotient with a full significand, and a sum of whole units, is off by one part in
`2 * stride` (`nearest_sum_bounds`).
-/

namespace OnlineLearning

theorem nearestEven_bounds {n d : Nat} (hd : 0 < d) :
    2 * n ≤ (2 * nearestEven n d + 1) * d ∧ 2 * nearestEven n d * d ≤ 2 * n + d := by
  have hn := Nat.div_add_mod n d
  have hr := Nat.mod_lt n hd
  have hcomm : n / d * d = d * (n / d) := Nat.mul_comm ..
  unfold nearestEven
  dsimp only
  split <;> constructor <;> simp only [Nat.add_mul, Nat.mul_add, Nat.mul_assoc, hcomm] <;> omega

namespace Format
variable (F : Format)

/-- The number of units from the magnitude of rank `r` to the next one. -/
def space (r : Nat) : Nat := 2 ^ (r / F.stride - 1)

theorem space_pos (r : Nat) : 0 < F.space r := Nat.two_pow_pos _

theorem space_of_lt {r : Nat} (h : r < F.stride) : F.space r = 1 := by
  rw [space, Nat.div_eq_of_lt h, Nat.zero_sub, Nat.pow_zero]

theorem space_full (q : Nat) {t : Nat} (h : t < F.stride) : F.space ((q + 1) * F.stride + t) = 2 ^ q := by
  rw [space, F.div_stride_full q h, Nat.add_sub_cancel]

theorem two_pow_le_space {r e : Nat} (h : (e + 1) * F.stride ≤ r) : 2 ^ e ≤ F.space r := by
  have := (Nat.le_div_iff_mul_le F.stride_pos).mpr h
  exact Nat.pow_le_pow_right (by decide) (by omega)

theorem space_le_two_pow {r e : Nat} (h : r < (e + 2) * F.stride) : F.space r ≤ 2 ^ e := by
  have := (Nat.div_lt_iff_lt_mul F.stride_pos).mpr h
  exact Nat.pow_le_pow_right (by decide) (by omega)

theorem exists_significand_space (r : Nat) :
    ∃ k, k < 2 * F.stride ∧ (F.stride ≤ r → F.stride ≤ k) ∧ F.units r = k * F.space r := by
  rcases F.lt_stride_or_full r with hr | ⟨q, t, ht, rfl⟩
  · refine ⟨r, by omega, id, ?_⟩
    rw [F.space_of_lt hr, F.units_of_lt (by omega), Nat.mul_one]
  · refine ⟨F.stride + t, by omega, fun _ => by omega, ?_⟩
    rw [F.space_full q ht, F.units_full q ht, Nat.shiftLeft_eq]

theorem space_mul_stride_le {r : Nat} (h : F.stride ≤ r) : F.space r * F.stride ≤ F.units r := by
  obtain ⟨k, -, hk, hr⟩ := F.exists_significand_space r
  rw [hr, Nat.mul_comm]
  exact Nat.mul_le_mul_right _ (hk h)

theorem space_mul_stride_le_succ {r : Nat} (h : F.stride ≤ r + 1) : F.space r * F.stride ≤ F.units (r + 1) := by
  rcases Nat.lt_or_ge r F.stride with hr | hr
  · have hspace : F.space r ≤ 2 ^ 0 := F.space_le_two_pow (by omega)
    calc F.space r * F.stride ≤ 1 * F.stride := Nat.mul_le_mul_right _ hspace
      _ ≤ F.units (r + 1) := by rw [F.units_of_lt (by omega)]; omega
  · exact Nat.le_trans (F.space_mul_stride_le hr) (Nat.le_of_lt (F.units_lt_succ r))

theorem units_lt_space_mul (r : Nat) : F.units r < F.space r * (2 * F.stride) := by
  obtain ⟨k, hk, -, hr⟩ := F.exists_significand_space r
  rw [hr, Nat.mul_comm]
  exact Nat.mul_lt_mul_of_pos_left hk (F.space_pos r)

theorem units_stretch {e n : Nat} (h : e ≠ 0 → F.stride ≤ n) (h' : n ≤ 2 * F.stride) :
    F.units (e * F.stride + n) = n * 2 ^ e := by
  have hs := F.stride_pos
  have hfull : ∀ q, F.stride ≤ n → F.units (q * F.stride + n) = n * 2 ^ q := by
    intro q hn
    rcases Nat.lt_or_eq_of_le h' with hlt | rfl
    · have hrank : q * F.stride + n = (q + 1) * F.stride + (n - F.stride) := by rw [Nat.succ_mul]; omega
      rw [hrank, F.units_full q (by omega), Nat.shiftLeft_eq]
      congr 1
      omega
    · have hrank : q * F.stride + 2 * F.stride = (q + 1 + 1) * F.stride + 0 := by
        rw [Nat.succ_mul (q + 1), Nat.succ_mul q]; omega
      rw [hrank, F.units_full (q + 1) hs, Nat.shiftLeft_eq, Nat.pow_succ, Nat.add_zero, Nat.mul_comm (2 ^ q),
        ← Nat.mul_assoc, Nat.mul_comm F.stride]
  rcases Nat.lt_or_ge n F.stride with hn | hn
  · obtain rfl : e = 0 := Decidable.byContradiction fun he => absurd (h he) (Nat.not_le.mpr hn)
    rw [Nat.zero_mul, Nat.zero_add, F.units_of_lt (by omega), Nat.pow_zero, Nat.mul_one]
  · exact hfull e hn

theorem units_succ (r : Nat) : F.units (r + 1) = F.units r + F.space r := by
  rcases F.lt_stride_or_full r with hr | ⟨q, t, ht, rfl⟩
  · rw [F.space_of_lt hr, F.units_of_lt (by omega), F.units_of_lt (by omega)]
  · have hrank : (q + 1) * F.stride + t = q * F.stride + (F.stride + t) := by rw [Nat.succ_mul, Nat.add_assoc]
    rw [F.space_full q ht, hrank, Nat.add_assoc, F.units_stretch (fun _ => by omega) (by omega),
      F.units_stretch (fun _ => by omega) (by omega), ← Nat.succ_mul]

/-- How a quotient is rounded: in stretch `e` of the ranks, to the significand `n`. -/
structure Rounded (num den e n : Nat) : Prop where
  rank : F.nearest num den = e * F.stride + n
  units : F.units (F.nearest num den) = n * 2 ^ e
  full : e ≠ 0 → F.stride ≤ n
  reached : e ≠ 0 → F.stride <<< e ≤ num / den
  above : 2 * num ≤ (2 * n + 1) * (den * 2 ^ e)
  below : 2 * n * (den * 2 ^ e) ≤ 2 * num + den * 2 ^ e

section
variable {num den r : Nat} (hd : 0 < den)
include hd

theorem exists_rounded (num : Nat) : ∃ e n, F.Rounded num den e n := by
  obtain ⟨e, he⟩ : ∃ e, e = (num / den).log2 + 1 - F.precision := ⟨_, rfl⟩
  have hrank : F.nearest num den = e * F.stride + nearestEven num (den <<< e) := by rw [nearest, ← he]
  obtain ⟨hlow, hup⟩ := F.significand_bounds he
  have hbounds := nearestEven_bounds (n := num) (d := den <<< e)
    (by rw [Nat.shiftLeft_eq]; exact Nat.mul_pos hd (Nat.two_pow_pos e))
  have hunits := F.units_stretch hlow hup
  rw [← hrank] at hunits
  rw [Nat.shiftLeft_eq] at hbounds hrank hunits hlow
  exact ⟨e, _, hrank, hunits, hlow, F.stride_shiftLeft_le he, hbounds.1, hbounds.2⟩

theorem two_mul_le_nearest :
    2 * num ≤ (F.units (F.nearest num den) + F.units (F.nearest num den + 1)) * den := by
  obtain ⟨e, n, hround⟩ := F.exists_rounded hd num
  have hspace : 2 ^ e ≤ F.space (F.nearest num den) := by
    rcases Nat.eq_zero_or_pos e with rfl | hpos
    · exact F.space_pos _
    · refine F.two_pow_le_space ?_
      rw [hround.rank, Nat.succ_mul]
      exact Nat.add_le_add_left (hround.full (Nat.ne_of_gt hpos)) _
  rw [units_succ, hround.units]
  calc 2 * num ≤ (2 * n + 1) * (den * 2 ^ e) := hround.above
    _ = (n * 2 ^ e + (n * 2 ^ e + 2 ^ e)) * den := by ring
    _ ≤ _ := Nat.mul_le_mul_right _ (by omega)

/-- Where the space below the rounded quotient is narrower than in its stretch, the stretch begins there, and so the
quotient is not below it. -/
theorem units_mul_le_of_rounded {e n : Nat} (hround : F.Rounded num den e n) (h : F.nearest num den = r + 1)
    (hspace : F.space r < 2 ^ e) : F.units (r + 1) * den ≤ num := by
  have hr : r < (e + 1) * F.stride :=
    Nat.lt_of_not_le fun hle => absurd hspace (Nat.not_lt.mpr (F.two_pow_le_space hle))
  have he : e ≠ 0 := by
    rintro rfl
    exact absurd hspace (Nat.not_lt.mpr (F.space_pos r))
  have hn : n = F.stride := by
    have hfull := hround.full he
    have hrank := hround.rank
    rw [Nat.succ_mul] at hr
    omega
  rw [← h, hround.units, hn, ← Nat.shiftLeft_eq]
  exact (Nat.le_div_iff_mul_le hd).mp (hround.reached he)

theorem nearest_le_two_mul (h : F.nearest num den = r + 1) : (F.units r + F.units (r + 1)) * den ≤ 2 * num := by
  obtain ⟨e, n, hround⟩ := F.exists_rounded hd num
  have hsucc := F.units_succ r
  rcases Nat.lt_or_ge (F.space r) (2 ^ e) with hspace | hspace
  · have hnum := F.units_mul_le_of_rounded hd hround h hspace
    calc (F.units r + F.units (r + 1)) * den ≤ 2 * F.units (r + 1) * den := Nat.mul_le_mul_right _ (by omega)
      _ ≤ 2 * num := by rw [Nat.mul_assoc]; exact Nat.mul_le_mul_left 2 hnum
  · have hunits := hround.units
    have hbelow := hround.below
    rw [h] at hunits
    have hsum : F.units r + F.units (r + 1) + 2 ^ e ≤ 2 * (n * 2 ^ e) := by omega
    have hscaled := Nat.mul_le_mul_right den hsum
    have hleft : 2 * (n * 2 ^ e) * den = 2 * n * (den * 2 ^ e) := by ring
    rw [Nat.add_mul, hleft, Nat.mul_comm (2 ^ e)] at hscaled
    omega

/-- Below the half way point to the next magnitude nothing is rounded up. -/
theorem nearest_le_of_two_mul_lt (h : 2 * num < (F.units r + F.units (r + 1)) * den) :
    F.nearest num den ≤ r := by
  refine Nat.le_of_not_lt fun hlt => ?_
  obtain ⟨s, hs⟩ := Nat.exists_eq_add_of_lt hlt
  have hle := F.nearest_le_two_mul hd (r := r + s) hs
  have hr := F.units_le_iff.mpr (Nat.le_add_right r s)
  have hr' := F.units_le_iff.mpr (show r + 1 ≤ r + s + 1 by omega)
  have := Nat.mul_le_mul_right den (Nat.add_le_add hr hr')
  omega

/-! ### Parts of a magnitude -/

/-- A quotient is above its rounded one by at most one part in `2 * stride`. -/
theorem mul_le_units_nearest (h : F.stride ≤ F.nearest num den) :
    num * (2 * F.stride) ≤ F.units (F.nearest num den) * (2 * F.stride + 1) * den := by
  have hnext : 2 * num ≤ (F.units (F.nearest num den) + F.units (F.nearest num den + 1)) * den :=
    F.two_mul_le_nearest hd
  have hhalf := Nat.mul_le_mul_right F.stride hnext
  have hspace := Nat.mul_le_mul_right den (F.space_mul_stride_le h)
  rw [units_succ] at hhalf
  generalize F.units (F.nearest num den) = u at *
  generalize F.space (F.nearest num den) = g at *
  calc num * (2 * F.stride) = 2 * num * F.stride := by ring
    _ ≤ (u + (u + g)) * den * F.stride := hhalf
    _ = u * (2 * F.stride) * den + g * F.stride * den := by ring
    _ ≤ u * (2 * F.stride) * den + u * den := Nat.add_le_add_left hspace _
    _ = u * (2 * F.stride + 1) * den := by ring

theorem units_nearest_mul_le (h : F.stride ≤ F.nearest num den) :
    F.units (F.nearest num den) * (2 * F.stride) * den ≤ num * (2 * F.stride) + F.units (F.nearest num den) * den := by
  have hs := F.stride_pos
  obtain ⟨r, hr⟩ := Nat.exists_eq_succ_of_ne_zero (show F.nearest num den ≠ 0 by omega)
  have hhalf := Nat.mul_le_mul_right F.stride (F.nearest_le_two_mul hd hr)
  have hspace := Nat.mul_le_mul_right den (F.space_mul_stride_le_succ (r := r) (by omega))
  rw [hr]
  show F.units (r + 1) * (2 * F.stride) * den ≤ num * (2 * F.stride) + F.units (r + 1) * den
  rw [units_succ] at hhalf hspace ⊢
  generalize F.units r = u at *
  generalize F.space r = g at *
  calc (u + g) * (2 * F.stride) * den = (u + (u + g)) * den * F.stride + g * F.stride * den := by ring
    _ ≤ 2 * num * F.stride + (u + g) * den := Nat.add_le_add hhalf hspace
    _ = num * (2 * F.stride) + (u + g) * den := by ring

end

/-- A whole number of units is off by at most one part in `2 * stride`, down to the least of them. -/
theorem nearest_sum_bounds (n : Nat) :
    n * (2 * F.stride) ≤ F.units (F.nearest n 1) * (2 * F.stride + 1) ∧
      F.units (F.nearest n 1) * (2 * F.stride) ≤ n * (2 * F.stride) + F.units (F.nearest n 1) := by
  rcases Nat.lt_or_ge n F.stride with hn | hn
  · have hunits : F.units n = n := F.units_of_lt (by omega)
    have hrank : F.nearest n 1 = n := by
      have := F.nearest_units n
      rwa [hunits] at this
    rw [hrank, hunits]
    exact ⟨Nat.mul_le_mul_left n (Nat.le_succ _), Nat.le_add_right ..⟩
  · have hrank : F.stride ≤ F.nearest n 1 := by
      refine F.le_nearest Nat.one_pos ?_
      rw [F.units_of_lt (by have := F.stride_pos; omega), Nat.mul_one]
      exact hn
    have habove := F.mul_le_units_nearest Nat.one_pos hrank
    have hbelow := F.units_nearest_mul_le Nat.one_pos hrank
    rw [Nat.mul_one] at habove hbelow
    rw [Nat.mul_one] at hbelow
    exact ⟨habove, hbelow⟩

end Format

end OnlineLearning
