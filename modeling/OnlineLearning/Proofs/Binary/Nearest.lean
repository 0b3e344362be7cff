import OnlineLearning.Binary.Order

/-! # Rounding keeps the order

`Format.nearest_mono`: a greater quotient is never rounded to a smaller magnitude. Together with
`nearest_units` this compares a rounded result with every magnitude of the format (`nearest_le`,
`le_nearest`), without a word about the error of the rounding. `Format.exists_units_eq` is the other
half: a whole number with a short enough significand is a magnitude, so nothing is lost on it. -/

namespace OnlineLearning

section
variable {n m d d' : Nat}

theorem nearestEven_le_nearestEven (hd : 0 < d) (h : n ≤ m) : nearestEven n d ≤ nearestEven m d := by
  rcases Nat.lt_or_eq_of_le (Nat.div_le_div_right (c := d) h) with hq | hq
  · calc nearestEven n d ≤ n / d + 1 := nearestEven_le n d
      _ ≤ m / d := hq
      _ ≤ nearestEven m d := le_nearestEven m d
  · have hn := Nat.div_add_mod n d
    have hm := Nat.div_add_mod m d
    rw [hq] at hn
    have hr : n % d ≤ m % d := by omega
    have hlt : m % d < d := Nat.mod_lt m hd
    unfold nearestEven
    rw [hq]
    dsimp only
    split <;> split <;> omega

theorem nearestEven_mono (hd : 0 < d) (hd' : 0 < d') (h : n * d' ≤ m * d) :
    nearestEven n d ≤ nearestEven m d' := by
  rw [← nearestEven_scale n d hd', ← nearestEven_scale m d' hd, Nat.mul_comm d' d]
  exact nearestEven_le_nearestEven (Nat.mul_pos hd hd') h

end

namespace Format

/-- A format with a finite number: rank zero is below the place of the infinities. -/
class HasZero (F : Format) : Prop where
  top_pos : 0 < F.top

instance : single.HasZero := ⟨by decide⟩

instance : double.HasZero := ⟨by decide⟩

variable (F : Format)

theorem top_pos [F.HasZero] : 0 < F.top := HasZero.top_pos

theorem two_mul_stride : 2 * F.stride = 1 <<< F.precision := by
  have hp := F.precision_pos
  rw [stride, Nat.one_shiftLeft, Nat.one_shiftLeft, ← Nat.pow_succ']
  congr 1
  omega

/-- A quotient past the first stretch of ranks is not below the start of its own. -/
theorem stride_shiftLeft_le {num den e : Nat} (he : e = (num / den).log2 + 1 - F.precision) (h0 : e ≠ 0) :
    F.stride <<< e ≤ num / den := by
  have hp := F.precision_pos
  have hlog : (num / den).log2 = F.precision - 1 + e := by omega
  rw [stride, Nat.one_shiftLeft, Nat.shiftLeft_eq, ← Nat.pow_add, ← hlog]
  refine Nat.log2_self_le fun hzero => ?_
  rw [hzero, Nat.log2_zero] at hlog
  omega

/-- The significand of a rounded quotient: at most full, and at least half full past the first
stretch of ranks. -/
theorem significand_bounds {num den e : Nat} (he : e = (num / den).log2 + 1 - F.precision) :
    (e ≠ 0 → F.stride ≤ nearestEven num (den <<< e)) ∧
      nearestEven num (den <<< e) ≤ 2 * F.stride := by
  have hq : num / (den <<< e) = num / den / 2 ^ e := by
    rw [Nat.shiftLeft_eq, Nat.div_div_eq_div_mul]
  constructor
  · intro h0
    have hle : F.stride ≤ num / (den <<< e) := by
      rw [hq, Nat.le_div_iff_mul_le (Nat.two_pow_pos e), ← Nat.shiftLeft_eq]
      exact F.stride_shiftLeft_le he h0
    exact Nat.le_trans hle (le_nearestEven _ _)
  · have hlt : num / den < 2 ^ (F.precision + e) :=
      Nat.lt_of_lt_of_le Nat.lt_log2_self (Nat.pow_le_pow_right (by decide) (by omega))
    have : num / (den <<< e) < 2 * F.stride := by
      rw [hq, two_mul_stride, Nat.one_shiftLeft, Nat.div_lt_iff_lt_mul (Nat.two_pow_pos e), ← Nat.pow_add]
      exact hlt
    exact Nat.le_trans (nearestEven_le _ _) this

theorem nearest_mono {num den num' den' : Nat} (hd : 0 < den) (hd' : 0 < den')
    (h : num * den' ≤ num' * den) : F.nearest num den ≤ F.nearest num' den' := by
  have hq : num / den ≤ num' / den' := by
    rw [Nat.le_div_iff_mul_le hd']
    have := Nat.mul_le_mul_right den' (Nat.div_mul_le_self num den)
    refine Nat.le_of_mul_le_mul_right (c := den) ?_ hd
    calc num / den * den' * den = num / den * den * den' := Nat.mul_right_comm ..
      _ ≤ num * den' := this
      _ ≤ num' * den := h
  have hlog : (num / den).log2 ≤ (num' / den').log2 := by
    by_cases h0 : num / den = 0
    · rw [h0, Nat.log2_zero]
      exact Nat.zero_le _
    · rw [Nat.le_log2 (Nat.ne_of_gt (Nat.lt_of_lt_of_le (Nat.pos_of_ne_zero h0) hq))]
      exact Nat.le_trans (Nat.log2_self_le h0) hq
  simp only [nearest]
  generalize he : (num / den).log2 + 1 - F.precision = e
  generalize he' : (num' / den').log2 + 1 - F.precision = e'
  rcases Nat.lt_or_eq_of_le (show e ≤ e' by omega) with hlt | rfl
  · -- the quotients lie in different stretches: each stretch ends before the next one begins
    have hup := (F.significand_bounds he.symm).2
    have hlo := (F.significand_bounds he'.symm).1 (by omega)
    calc e * F.stride + nearestEven num (den <<< e) ≤ e * F.stride + 2 * F.stride := by omega
      _ = (e + 1) * F.stride + F.stride := by rw [Nat.succ_mul e]; omega
      _ ≤ e' * F.stride + F.stride := Nat.add_le_add_right (Nat.mul_le_mul_right _ hlt) _
      _ ≤ e' * F.stride + nearestEven num' (den' <<< e') := Nat.add_le_add_left hlo _
  · have hp : 0 < 2 ^ e := Nat.two_pow_pos e
    refine Nat.add_le_add_left (nearestEven_mono ?_ ?_ ?_) _
    · rw [Nat.shiftLeft_eq]; exact Nat.mul_pos hd hp
    · rw [Nat.shiftLeft_eq]; exact Nat.mul_pos hd' hp
    · rw [Nat.shiftLeft_eq, Nat.shiftLeft_eq, ← Nat.mul_assoc, ← Nat.mul_assoc]
      exact Nat.mul_le_mul_right _ h

theorem nearest_le {num den r : Nat} (hd : 0 < den) (h : num ≤ F.units r * den) :
    F.nearest num den ≤ r := by
  have : F.nearest num den ≤ F.nearest (F.units r) 1 := F.nearest_mono hd Nat.one_pos (by omega)
  rwa [nearest_units] at this

theorem le_nearest {num den r : Nat} (hd : 0 < den) (h : F.units r * den ≤ num) :
    r ≤ F.nearest num den := by
  have : F.nearest (F.units r) 1 ≤ F.nearest num den := F.nearest_mono Nat.one_pos hd (by omega)
  rwa [nearest_units] at this

theorem nearest_zero {den : Nat} (hd : 0 < den) : F.nearest 0 den = 0 :=
  Nat.le_zero.mp (F.nearest_le hd (Nat.zero_le _))

theorem units_pos {r : Nat} (h : 0 < r) : 0 < F.units r := by
  rw [← F.units_zero]
  exact F.units_lt_of_lt h

theorem units_le_iff {r s : Nat} : F.units r ≤ F.units s ↔ r ≤ s := by
  rw [← Nat.not_lt, ← Nat.not_lt, units_lt_iff]

theorem exists_units_eq : ∀ (e : Nat) {k : Nat}, k ≤ 2 * F.stride → ∃ r, F.units r = k <<< e
  | 0, k, hk => by
    rcases Nat.lt_or_eq_of_le hk with hk | rfl
    · exact ⟨k, by rw [F.units_of_lt hk, Nat.shiftLeft_zero]⟩
    · refine ⟨(1 + 1) * F.stride + 0, ?_⟩
      rw [F.units_full 1 F.stride_pos, Nat.shiftLeft_zero, Nat.shiftLeft_eq]
      omega
  | e + 1, k, hk => by
    rcases Nat.lt_or_ge k F.stride with h | h
    · obtain ⟨r, hr⟩ := exists_units_eq e (k := 2 * k) (by omega)
      refine ⟨r, hr.trans ?_⟩
      rw [Nat.shiftLeft_eq, Nat.shiftLeft_eq, Nat.pow_succ, Nat.mul_comm 2 k, Nat.mul_assoc,
        Nat.mul_comm 2]
    · rcases Nat.lt_or_eq_of_le hk with hk | rfl
      · refine ⟨(e + 1 + 1) * F.stride + (k - F.stride), ?_⟩
        rw [F.units_full (e + 1) (by omega)]
        congr 1
        omega
      · refine ⟨(e + 2 + 1) * F.stride + 0, ?_⟩
        rw [F.units_full (e + 2) F.stride_pos, Nat.shiftLeft_eq, Nat.shiftLeft_eq,
          Nat.pow_succ 2 (e + 1), Nat.mul_comm (2 ^ (e + 1)) 2, ← Nat.mul_assoc, Nat.add_zero,
          Nat.mul_comm F.stride 2]

end Format

end OnlineLearning
