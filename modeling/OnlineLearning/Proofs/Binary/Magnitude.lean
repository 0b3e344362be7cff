import Mathlib.Algebra.Group.Nat.Defs
import OnlineLearning.Proofs.Binary.UnitInterval

/-!
# Finite numbers and their size

The magnitude of a number is its size in units, without its sign; whatever is not finite counts as the
first size beyond the format. Rounded results of finite numbers are finite only if their operands are,
and powers of two bound them from powers of two: exponents add up in products and come off in quotients,
in units of the format.
-/

namespace OnlineLearning

/-- Products compare as the exponents of powers of two between their factors add up. -/
theorem mul_le_mul_of_two_pow {m n p q a b c d : Nat} (hm : m ≤ 2 ^ a) (hn : n ≤ 2 ^ b) (hp : 2 ^ c ≤ p)
    (hq : 2 ^ d ≤ q) (h : a + b ≤ c + d) : m * n ≤ p * q :=
  calc m * n ≤ 2 ^ a * 2 ^ b := Nat.mul_le_mul hm hn
    _ = 2 ^ (a + b) := (Nat.pow_add ..).symm
    _ ≤ 2 ^ (c + d) := Nat.pow_le_pow_right (by decide) h
    _ = 2 ^ c * 2 ^ d := Nat.pow_add ..
    _ ≤ p * q := Nat.mul_le_mul hp hq

namespace Format

theorem exists_units_eq_two_pow (F : Format) (k : Nat) : ∃ r, F.units r = 2 ^ k := by
  obtain ⟨r, hr⟩ := F.exists_units_eq k (k := 1) (by have := F.stride_pos; omega)
  exact ⟨r, by rw [hr, Nat.one_shiftLeft]⟩

theorem one_eq_two_pow (F : Format) : F.one = 2 ^ F.scale := by rw [one, Nat.one_shiftLeft]

end Format

namespace Number
variable {F : Format} {x y : Number F} {a b k : Nat}

/-- Whether a number is neither infinite nor undefined. -/
def isFinite : Number F → Bool
  | finite _ _ => true
  | _ => false

/-- The size of a number in units; what is not finite lies beyond the format. -/
def magnitude : Number F → Nat
  | finite _ r => F.units r
  | _ => F.units F.top

theorem isFinite_iff : x.isFinite = true ↔ ∃ s r, x = finite s r := by
  cases x with
  | finite s r => exact ⟨fun _ => ⟨s, r, rfl⟩, fun _ => rfl⟩
  | _ => exact ⟨nofun, fun ⟨_, _, h⟩ => nomatch h⟩

theorem isFinite_ofRank {s : Bool} {r : Nat} : (ofRank s r : Number F).isFinite = true ↔ r < F.top := by
  unfold ofRank
  split
  · rename_i h
    exact ⟨fun _ => h, fun _ => rfl⟩
  · rename_i h
    exact ⟨nofun, fun hr => absurd hr h⟩

theorem isFinite_iff_magnitude : x.isFinite = true ↔ x.magnitude < F.units F.top := by
  cases x with
  | finite s r => exact ⟨fun _ => F.units_lt_of_lt r.isLt, fun _ => rfl⟩
  | _ => exact ⟨nofun, fun h => absurd h (Nat.lt_irrefl _)⟩

theorem magnitude_le_top (x : Number F) : x.magnitude ≤ F.units F.top := by
  cases x with
  | finite s r => exact Nat.le_of_lt (F.units_lt_of_lt r.isLt)
  | _ => exact Nat.le_refl _

theorem magnitude_of_not_finite (h : x.isFinite = false) : x.magnitude = F.units F.top := by
  cases x with
  | finite s r => cases h
  | _ => rfl

theorem magnitude_neg (x : Number F) : (-x).magnitude = x.magnitude := by
  cases x <;> rfl

theorem magnitude_ofRank (s : Bool) (r : Nat) :
    (ofRank s r : Number F).magnitude = min (F.units r) (F.units F.top) := by
  unfold ofRank
  split
  · rename_i h
    rw [Nat.min_eq_left (Nat.le_of_lt (F.units_lt_of_lt h))]
    rfl
  · rename_i h
    rw [Nat.min_eq_right (F.units_le_iff.mpr (Nat.not_lt.mp h))]
    rfl

/-! ### Rounding -/

theorem magnitude_round_le {s : Bool} {num den r : Nat} (hd : 0 < den) (h : num ≤ F.units r * den) :
    (round s num den : Number F).magnitude ≤ F.units r := by
  rw [round, magnitude_ofRank]
  exact Nat.le_trans (Nat.min_le_left ..) (F.units_le_iff.mpr (F.nearest_le hd h))

theorem le_magnitude_round {s : Bool} {num den r : Nat} (hd : 0 < den) (h : F.units r * den ≤ num)
    (hr : F.units r ≤ F.units F.top) : F.units r ≤ (round s num den : Number F).magnitude := by
  rw [round, magnitude_ofRank]
  exact Nat.le_min.mpr ⟨F.units_le_iff.mpr (F.le_nearest hd h), hr⟩

theorem magnitude_roundUnits (s : Bool) (n : Int) :
    (roundUnits s n : Number F).magnitude = min (F.units (F.nearest n.natAbs 1)) (F.units F.top) := by
  match n with
  | .ofNat 0 =>
    show (ofRank s 0 : Number F).magnitude = min (F.units (F.nearest 0 1)) _
    rw [magnitude_ofRank, F.nearest_zero Nat.one_pos]
  | .ofNat (n + 1) => exact magnitude_ofRank ..
  | .negSucc n => exact magnitude_ofRank ..

/-! ### Operands of finite results -/

theorem isFinite_of_add (h : (x + y).isFinite = true) : x.isFinite = true ∧ y.isFinite = true := by
  change (add x y).isFinite = true at h
  rcases x with _ | s | ⟨s, r⟩ <;> rcases y with _ | t | ⟨t, q⟩ <;> simp only [add] at h
  · cases h
  · cases h
  · cases h
  · cases h
  · split at h <;> cases h
  · cases h
  · cases h
  · cases h
  · exact ⟨rfl, rfl⟩

theorem isFinite_of_sub (h : (x - y).isFinite = true) : x.isFinite = true ∧ y.isFinite = true := by
  obtain ⟨hx, hy⟩ := isFinite_of_add (x := x) (y := -y) h
  refine ⟨hx, ?_⟩
  cases y with
  | finite t q => rfl
  | _ => cases hy

theorem isFinite_of_mul (h : (x * y).isFinite = true) : x.isFinite = true ∧ y.isFinite = true := by
  change (mul x y).isFinite = true at h
  rcases x with _ | s | ⟨s, r⟩ <;> rcases y with _ | t | ⟨t, q⟩ <;> simp only [mul] at h
  · cases h
  · cases h
  · cases h
  · cases h
  · cases h
  · split at h <;> cases h
  · cases h
  · split at h <;> cases h
  · exact ⟨rfl, rfl⟩

theorem isFinite_of_div (h : (x / y).isFinite = true) : x.isFinite = true ∧ y ≠ nan := by
  change (div x y).isFinite = true at h
  rcases x with _ | s | ⟨s, r⟩ <;> rcases y with _ | t | ⟨t, q⟩ <;> simp only [div] at h
  · cases h
  · cases h
  · cases h
  · cases h
  · cases h
  · cases h
  · cases h
  · exact ⟨rfl, nofun⟩
  · exact ⟨rfl, nofun⟩

theorem isFinite_of_sqrt (h : x.sqrt.isFinite = true) : x.isFinite = true := by
  rcases x with _ | s | ⟨s, r⟩
  · cases h
  · cases s <;> cases h
  · rfl

theorem isFinite_of_less_zero (hpos : Number.less 0 x = true) (hne : x ≠ infinite false) :
    x.isFinite = true := by
  obtain ⟨p, hp, hp0⟩ := less_zero_iff.mp hpos
  rcases x with _ | s | ⟨s, r⟩
  · cases hp
  · cases s
    · exact absurd rfl hne
    · have := Option.some.inj hp
      simp only [if_true] at this
      omega
  · rfl

/-! ### Products -/

theorem magnitude_mul_le (hx : x.isFinite = true) (hy : y.isFinite = true) (ha : x.magnitude ≤ 2 ^ a)
    (hb : y.magnitude ≤ 2 ^ b) (h : a + b ≤ k + F.scale) : (x * y).magnitude ≤ 2 ^ k := by
  obtain ⟨s, r, rfl⟩ := isFinite_iff.mp hx
  obtain ⟨t, q, rfl⟩ := isFinite_iff.mp hy
  obtain ⟨p, hp⟩ := F.exists_units_eq_two_pow k
  rw [← hp]
  refine magnitude_round_le F.one_pos ?_
  exact mul_le_mul_of_two_pow ha hb (Nat.le_of_eq hp.symm) (Nat.le_of_eq F.one_eq_two_pow.symm) h

theorem le_magnitude_mul (ha : 2 ^ a ≤ x.magnitude) (hb : 2 ^ b ≤ y.magnitude) (h : k + F.scale ≤ a + b)
    (hk : 2 ^ k ≤ F.units F.top) : 2 ^ k ≤ (x * y).magnitude := by
  cases hfinite : (x * y).isFinite with
  | false => rwa [magnitude_of_not_finite hfinite]
  | true =>
    obtain ⟨hx, hy⟩ := isFinite_of_mul hfinite
    obtain ⟨s, r, rfl⟩ := isFinite_iff.mp hx
    obtain ⟨t, q, rfl⟩ := isFinite_iff.mp hy
    obtain ⟨p, hp⟩ := F.exists_units_eq_two_pow k
    rw [← hp] at hk ⊢
    refine le_magnitude_round F.one_pos ?_ hk
    exact mul_le_mul_of_two_pow (Nat.le_of_eq hp) (Nat.le_of_eq F.one_eq_two_pow) ha hb h

theorem magnitude_mul_le_left (hx : x.isFinite = true) (hy : y.isFinite = true) (h : y.magnitude ≤ F.one) :
    (x * y).magnitude ≤ x.magnitude := by
  obtain ⟨s, r, rfl⟩ := isFinite_iff.mp hx
  obtain ⟨t, q, rfl⟩ := isFinite_iff.mp hy
  exact magnitude_round_le F.one_pos (Nat.mul_le_mul_left _ h)

theorem le_magnitude_mul_right (h : F.one ≤ x.magnitude) : y.magnitude ≤ (x * y).magnitude := by
  cases hfinite : (x * y).isFinite with
  | false =>
    rw [magnitude_of_not_finite hfinite]
    exact magnitude_le_top y
  | true =>
    obtain ⟨hx, hy⟩ := isFinite_of_mul hfinite
    obtain ⟨s, r, rfl⟩ := isFinite_iff.mp hx
    obtain ⟨t, q, rfl⟩ := isFinite_iff.mp hy
    refine le_magnitude_round F.one_pos ?_ (Nat.le_of_lt (F.units_lt_of_lt q.isLt))
    rw [Nat.mul_comm]
    exact Nat.mul_le_mul_right _ h

/-! ### Sums -/

theorem add_comm (x y : Number F) : x + y = y + x := by
  show add x y = add y x
  rcases x with _ | s | ⟨s, r⟩ <;> rcases y with _ | t | ⟨t, q⟩ <;> simp only [add]
  · cases s <;> cases t <;> rfl
  · rw [Bool.and_comm, Int.add_comm]

theorem magnitude_add_le (hx : x.isFinite = true) (hy : y.isFinite = true) :
    (x + y).magnitude ≤ F.units (F.nearest (x.magnitude + y.magnitude) 1) := by
  obtain ⟨s, r, rfl⟩ := isFinite_iff.mp hx
  obtain ⟨t, q, rfl⟩ := isFinite_iff.mp hy
  show (roundUnits (s && t) _ : Number F).magnitude ≤ F.units (F.nearest (F.units r + F.units q) 1)
  rw [magnitude_roundUnits]
  refine Nat.le_trans (Nat.min_le_left ..) (F.units_le_iff.mpr (F.nearest_mono Nat.one_pos Nat.one_pos ?_))
  cases s <;> cases t <;> simp only [if_true, if_false, Bool.false_eq_true] <;> omega

theorem magnitude_add_le_two_pow (hx : x.isFinite = true) (hy : y.isFinite = true)
    (h : x.magnitude + y.magnitude ≤ 2 ^ k) : (x + y).magnitude ≤ 2 ^ k := by
  obtain ⟨p, hp⟩ := F.exists_units_eq_two_pow k
  refine Nat.le_trans (magnitude_add_le hx hy) ?_
  rw [← hp] at h ⊢
  exact F.units_le_iff.mpr (F.nearest_le Nat.one_pos (by omega))

theorem magnitude_sub_le (hx : x.isFinite = true) (hy : y.isFinite = true) :
    (x - y).magnitude ≤ F.units (F.nearest (x.magnitude + y.magnitude) 1) := by
  rw [← magnitude_neg y]
  refine magnitude_add_le (x := x) (y := -y) hx ?_
  obtain ⟨t, q, rfl⟩ := isFinite_iff.mp hy
  rfl

theorem HasSign.le_magnitude_add (hx : x.HasSign false) (hy : y.HasSign false) :
    x.magnitude ≤ (x + y).magnitude ∧ y.magnitude ≤ (x + y).magnitude := by
  have hle : ∀ {x y : Number F}, x.HasSign false → y.HasSign false → x.magnitude ≤ (x + y).magnitude := by
    intro x y hx hy
    rcases hx.exists_rank with rfl | ⟨r, hr, rfl⟩
    · exact Nat.le_of_eq (congrArg magnitude (nan_add y).symm)
    · rcases ofRank_add hr hy with h | ⟨q, hq, h⟩
      · rw [h]
        exact magnitude_le_top _
      · rw [h, magnitude_ofRank, magnitude_ofRank]
        have := F.units_le_iff.mpr hq
        omega
  refine ⟨hle hx hy, ?_⟩
  rw [add_comm]
  exact hle hy hx

theorem HasSign.add (hx : x.HasSign false) (hy : y.HasSign false) : (x + y).HasSign false := by
  rcases hx.exists_rank with rfl | ⟨r, hr, rfl⟩
  · rw [nan_add]
    exact .nan
  · rcases ofRank_add hr hy with h | ⟨q, -, h⟩
    · rw [h]
      exact .nan
    · rw [h]
      exact hasSign_ofRank ..

/-! ### Quotients and roots -/

theorem magnitude_div_le (hx : x.isFinite = true) (hy : y ≠ nan) (ha : x.magnitude ≤ 2 ^ a)
    (hb : 2 ^ b ≤ y.magnitude) (h : a + F.scale ≤ k + b) : (x / y).magnitude ≤ 2 ^ k := by
  obtain ⟨s, r, rfl⟩ := isFinite_iff.mp hx
  rcases y with _ | t | ⟨t, q⟩
  · exact absurd rfl hy
  · show (ofRank (s != t) 0 : Number F).magnitude ≤ _
    rw [magnitude_ofRank, F.units_zero, Nat.zero_min]
    exact Nat.zero_le _
  · have hpos : 0 < F.units q := Nat.lt_of_lt_of_le (Nat.two_pow_pos b) hb
    have hne : q.val ≠ 0 := by
      intro h0
      rw [h0, F.units_zero] at hpos
      exact Nat.lt_irrefl 0 hpos
    obtain ⟨p, hp⟩ := F.exists_units_eq_two_pow k
    show (if q.val = 0 then _ else round (s != t) (F.units r * F.one) (F.units q) : Number F).magnitude ≤ _
    rw [if_neg hne, ← hp]
    refine magnitude_round_le hpos ?_
    exact mul_le_mul_of_two_pow ha (Nat.le_of_eq F.one_eq_two_pow) (Nat.le_of_eq hp.symm) hb h

theorem le_magnitude_div (hy : y.isFinite = true) (ha : 2 ^ a ≤ x.magnitude) (hb : y.magnitude ≤ 2 ^ b)
    (h : k + b ≤ a + F.scale) (hk : 2 ^ k ≤ F.units F.top) : 2 ^ k ≤ (x / y).magnitude := by
  obtain ⟨t, q, rfl⟩ := isFinite_iff.mp hy
  rcases x with _ | s | ⟨s, r⟩
  · exact hk
  · exact hk
  · show 2 ^ k ≤ (if q.val = 0 then if r.val = 0 then nan else infinite (s != t)
      else round (s != t) (F.units r * F.one) (F.units q) : Number F).magnitude
    split
    · split <;> exact hk
    · rename_i hne
      have hpos := F.units_pos (Nat.pos_of_ne_zero hne)
      obtain ⟨p, hp⟩ := F.exists_units_eq_two_pow k
      rw [← hp] at hk ⊢
      refine le_magnitude_round hpos ?_ hk
      exact mul_le_mul_of_two_pow (Nat.le_of_eq hp) hb ha (Nat.le_of_eq F.one_eq_two_pow.symm) h

/-- Nothing above zero is left of a number divided by what is not finite. -/
theorem isFinite_divisor (hpos : Number.less 0 (x / y) = true) : y.isFinite = true := by
  obtain ⟨p, hp, hp0⟩ := less_zero_iff.mp hpos
  rcases y with _ | t | ⟨t, q⟩
  · rw [div_nan] at hp
    cases hp
  · rcases x with _ | s | ⟨s, r⟩
    · cases hp
    · cases hp
    · change (ofRank (s != t) 0 : Number F).order? = some p at hp
      unfold ofRank at hp
      rw [dif_pos r.pos] at hp
      cases (s != t) <;> simp [order?] at hp <;> omega
  · rfl

theorem isFinite_of_less_zero_div (hpos : Number.less 0 (x / y) = true) (hne : x / y ≠ infinite false) :
    x.isFinite = true ∧ y.isFinite = true :=
  ⟨(isFinite_of_div (isFinite_of_less_zero hpos hne)).1, isFinite_divisor hpos⟩

theorem magnitude_sqrt_le (hx : x.sqrt.isFinite = true) (ha : x.magnitude ≤ 2 ^ a) (h : a + F.scale ≤ k + k) :
    x.sqrt.magnitude ≤ 2 ^ k := by
  have h : x.magnitude * F.one ≤ 2 ^ k * 2 ^ k :=
    mul_le_mul_of_two_pow ha (Nat.le_of_eq F.one_eq_two_pow) (Nat.le_refl _) (Nat.le_refl _) h
  obtain ⟨s, r, rfl⟩ := isFinite_iff.mp (isFinite_of_sqrt hx)
  change F.units r * F.one ≤ _ at h
  unfold sqrt at hx ⊢
  dsimp only at hx ⊢
  split
  · rename_i h0
    show F.units r ≤ 2 ^ k
    rw [h0, F.units_zero]
    exact Nat.zero_le _
  rename_i hne
  rw [if_neg hne] at hx
  split
  · rename_i hneg
    rw [if_pos hneg] at hx
    cases hx
  · obtain ⟨p, hp⟩ := F.exists_units_eq_two_pow k
    rw [← hp]
    refine magnitude_round_le (by decide) ?_
    rw [hp]
    have hsquare := floorSqrt_sq_le (F.units r * F.one)
    -- an inexact root is below the bound, which is whole
    by_cases hexact : floorSqrt (F.units r * F.one) * floorSqrt (F.units r * F.one) = F.units r * F.one
    · rw [if_pos hexact]
      have hroot := Nat.mul_self_le_mul_self_iff.mp (Nat.le_trans hsquare h)
      omega
    · rw [if_neg hexact]
      have hroot := Nat.mul_self_lt_mul_self_iff.mp
        (Nat.lt_of_lt_of_le (Nat.lt_of_le_of_ne hsquare hexact) h)
      omega

/-! ### Zero -/

/-- A term of weight zero adds nothing, unless its value is not finite. -/
theorem zero_add_zero_mul [F.HasZero] (x : Number F) :
    (0 : Number F) + 0 * x = if x.isFinite then 0 else nan := by
  have hzero : (0 : Number F) = finite false ⟨0, F.top_pos⟩ := by rw [zero_eq, ofRank_of_lt F.top_pos]
  rcases x with _ | s | ⟨s, r⟩
  · rw [mul_nan, add_nan]
    rfl
  · rw [hzero]
    rfl
  · have hterm : (0 : Number F) * finite s r = finite s ⟨0, F.top_pos⟩ := by
      rw [hzero]
      show ofRank (false != s) (F.nearest (F.units 0 * F.units r) F.one) = _
      rw [F.units_zero, Nat.zero_mul, F.nearest_zero F.one_pos, Bool.false_bne, ofRank_of_lt F.top_pos]
    rw [hterm, hzero]
    show roundUnits (false && s) ((F.units 0 : Int) + if s then -(F.units 0 : Int) else F.units 0) = _
    rw [F.units_zero, Bool.false_and]
    cases s <;> exact ofRank_of_lt F.top_pos

end Number

end OnlineLearning
