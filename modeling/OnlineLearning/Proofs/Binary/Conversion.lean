import OnlineLearning.Proofs.Binary.Monotone

/-!
# What conversions keep and lose

A conversion rounds once, so it keeps the order also where it narrows (`atMost_convert_of_atMost`). Two things
get lost at the ends of a range. A number that is not above half of the least four-byte number is narrowed to zero
(`less_zero_narrow_iff`), and an integer from the half way point behind the greatest eight-byte number on becomes an
infinity (`isFinite_ofInt_iff`).
-/

namespace OnlineLearning

namespace Format
variable (F : Format)

theorem nearest_pos_iff {num den : Nat} (hd : 0 < den) : 0 < F.nearest num den ↔ den < 2 * num := by
  have hp := F.precision_pos
  rcases Nat.lt_or_ge num den with hlt | hge
  · have hdiv : num / den = 0 := Nat.div_eq_of_lt hlt
    have hexponent : (0 : Nat).log2 + 1 - F.precision = 0 := by
      rw [Nat.log2_zero]
      omega
    rw [nearest, hdiv, hexponent, Nat.zero_mul, Nat.zero_add, Nat.shiftLeft_zero, nearestEven, hdiv,
      Nat.mod_eq_of_lt hlt]
    split <;> omega
  · have hone : 1 ≤ F.nearest num den := by
      refine F.le_nearest hd ?_
      rw [F.units_of_lt (by have := F.stride_pos; omega), Nat.one_mul]
      exact hge
    omega

end Format

namespace Number
variable {F G : Format} {x y : Number F}

theorem order?_convert_finite (s : Bool) (r : Fin F.top) :
    ((finite s r : Number F).convert G).order? =
      some (if s then -((min (G.nearest (F.units r * G.one) F.one) G.top : Nat) : Int)
        else (min (G.nearest (F.units r * G.one) F.one) G.top : Nat)) := order?_ofRank ..

theorem atMost_convert_of_atMost [F.HasZero] (h : x.atMost y = true) :
    (x.convert G).atMost (y.convert G) = true := by
  have hnan : ∀ {z : Number F}, z ≠ nan → z.convert G ≠ nan := fun hz => mt convert_eq_nan_iff.mp hz
  obtain ⟨hx, hy⟩ := ne_nan_of_atMost h
  rcases x with _ | s | ⟨s, a⟩
  · exact absurd rfl hx
  · cases s with
    | true => exact infinite_atMost (hnan hy)
    | false =>
      rw [eq_infinite_of_atMost h]
      exact atMost_infinite nofun
  · rcases y with _ | t | ⟨t, b⟩
    · exact absurd rfl hy
    · cases t with
      | true => cases eq_infinite_of_atMost' h
      | false => exact atMost_infinite (hnan hx)
    · have hzero : G.nearest (F.units 0 * G.one) F.one = 0 := by
        rw [F.units_zero, Nat.zero_mul, G.nearest_zero F.one_pos]
      have hmono : ∀ {p q : Nat}, p ≤ q →
          G.nearest (F.units p * G.one) F.one ≤ G.nearest (F.units q * G.one) F.one := fun hpq =>
        G.nearest_mono F.one_pos F.one_pos
          (Nat.mul_le_mul_right _ (Nat.mul_le_mul_right _ (F.units_le_iff.mpr hpq)))
      obtain ⟨p, q, hp, hq, hpq⟩ := atMost_iff.mp h
      obtain rfl := Option.some.inj hp
      obtain rfl := Option.some.inj hq
      refine atMost_iff.mpr ⟨_, _, order?_convert_finite s a, order?_convert_finite t b, ?_⟩
      cases s <;> cases t <;> simp only [Bool.false_eq_true, if_false, if_true] at hpq ⊢
      · have := hmono (Int.ofNat_le.mp hpq)
        omega
      · -- only zeros lie on both sides
        rw [show a.val = 0 by omega, show b.val = 0 by omega, hzero]
        omega
      · omega
      · have := hmono (show b.val ≤ a.val by omega)
        omega

/-! ### Small numbers -/

/-- Half of the least four-byte number above zero. -/
def halfLeast : Double := round false Format.double.one (2 ^ 150)

/-- A number stays above zero when it is narrowed exactly if it is above half of the least one. -/
theorem less_zero_narrow_iff {x : Double} : Number.less 0 x.narrow = true ↔ halfLeast.less x = true := by
  rcases x with _ | s | ⟨s, r⟩
  · decide +kernel
  · cases s <;> decide +kernel
  · obtain ⟨half, least, hleast, hunits, hdouble⟩ : ∃ (half : Nat) (least : Fin Format.double.top),
        halfLeast = finite false least ∧ Format.double.units least = half ∧ Format.double.one = half * 2 ^ 150 :=
      ⟨2 ^ 924, ⟨873 <<< 52, by decide⟩, by decide +kernel, by decide +kernel, by decide +kernel⟩
    have hsingle : 2 * (Format.double.units r * Format.single.one) = Format.double.units r * 2 ^ 150 := by
      rw [show Format.single.one = 2 ^ 149 by decide +kernel, Nat.mul_left_comm]
      rfl
    have hnear : 0 < Format.single.nearest (Format.double.units r * Format.single.one) Format.double.one ↔
        half < Format.double.units r := by
      rw [Format.single.nearest_pos_iff Format.double.one_pos, hsingle, hdouble,
        Nat.mul_lt_mul_right (Nat.two_pow_pos 150)]
    have htop : 0 < Format.single.top := by decide
    rw [less_zero_iff, hleast, less_finite_iff, narrow, order?_convert_finite]
    unfold signedUnits
    rw [hunits]
    cases s <;> simp <;> omega

/-! ### Great integers -/

theorem isFinite_ofInt_iff {n : Int} : (ofInt n : Double).isFinite = true ↔ n.natAbs < 2 ^ 1024 - 2 ^ 970 := by
  have hmono : ∀ {a b : Nat}, a ≤ b →
      Format.double.nearest (a * Format.double.one) 1 ≤ Format.double.nearest (b * Format.double.one) 1 := fun h =>
    Format.double.nearest_mono Nat.one_pos Nat.one_pos (by rw [Nat.mul_one, Nat.mul_one]; exact Nat.mul_le_mul_right _ h)
  have hbelow : Format.double.nearest ((2 ^ 1024 - 2 ^ 970 - 1) * Format.double.one) 1 < Format.double.top := by
    decide +kernel
  have hbeyond : Format.double.top ≤ Format.double.nearest ((2 ^ 1024 - 2 ^ 970) * Format.double.one) 1 := by
    decide +kernel
  have hrank : Format.double.nearest (n.natAbs * Format.double.one) 1 < Format.double.top ↔
      n.natAbs < 2 ^ 1024 - 2 ^ 970 := by
    constructor
    · intro h
      refine Nat.lt_of_not_le fun hle => ?_
      have := hmono hle
      omega
    · intro h
      exact Nat.lt_of_le_of_lt (hmono (Nat.le_sub_one_of_lt h)) hbelow
  rw [isFinite_iff_magnitude, ofInt, magnitude_roundUnits, Int.natAbs_mul, Int.natAbs_natCast, ← hrank]
  have hunits := Format.double.units_lt_iff (r := Format.double.nearest (n.natAbs * Format.double.one) 1)
    (s := Format.double.top)
  omega

end Number

end OnlineLearning
