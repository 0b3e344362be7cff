import OnlineLearning.Proofs.Decimal.RoundTrip

/-!
# How long the text of a number is

The shortest decimal of a number has a coefficient of no more digits, and an exponent no greater, than its format
allows for (`short_shortest`). Its text shows the digits of the coefficient with a point among them or zeros beside
them, or with the digits of an exponent, so there is a length that no text of a number of the format exceeds
(`length_text_le`).
-/

namespace OnlineLearning

namespace Text
variable {ds : List Char} {k n : Nat}

theorem length_padZeros_le (width : Nat) (cs : List Char) : (padZeros width cs).length ≤ width + cs.length := by
  rw [padZeros, List.length_append, List.length_replicate]
  omega

theorem length_digits_le_succ (n : Nat) : (digits n).length ≤ n + 1 :=
  length_digits_le (Nat.succ_pos n)
    (Nat.lt_trans (Nat.lt_pow_self (by decide : 1 < 10)) (Nat.pow_lt_pow_succ (by decide : 1 < 10)))

theorem digitCount_le (h : n < 10 ^ k) : digitCount n ≤ k := by
  by_cases hn : n = 0
  · rw [hn, digitCount, if_pos rfl]
    exact Nat.zero_le k
  · have hlt := Nat.lt_of_le_of_lt (ten_pow_digitCount_le hn) h
    have := (Nat.pow_lt_pow_iff_right (by decide : 1 < 10)).mp hlt
    omega

theorem length_withPoint_le (ds : List Char) (place : Int) :
    (withPoint ds place).length ≤ ds.length + place.natAbs + 2 := by
  unfold withPoint
  split
  · simp only [List.length_cons, List.length_append, List.length_replicate]
    omega
  · split
    · simp only [List.length_append, List.length_cons, List.length_nil, List.length_replicate]
      omega
    · simp only [List.length_append, List.length_cons, List.length_take, List.length_drop]
      omega

theorem length_withExponent_le (layout : NumberLayout) (ds : List Char) (lead : Int) :
    (withExponent layout ds lead).length ≤ ds.length + layout.exponentWidth + lead.natAbs + 5 := by
  have hpower := length_padZeros_le layout.exponentWidth (digits lead.natAbs)
  have hdigits := length_digits_le_succ lead.natAbs
  unfold withExponent
  dsimp only
  split <;> simp only [List.length_append, List.length_cons, List.length_nil, List.length_take, List.length_drop] <;>
    omega

end Text

namespace Decimal
variable {F : Format} {d : Decimal} {k : Nat}

/-- Whether a decimal has at most `k` digits, and an exponent of at most `k`. -/
structure Short (k : Nat) (d : Decimal) : Prop where
  coefficient : d.coefficient < 10 ^ k
  exponent : d.exponent.natAbs ≤ k

theorem length_significantDigits_le (hk : 0 < k) (h : d.Short k) : d.significantDigits.length ≤ k := by
  obtain ⟨zeros, hzeros⟩ := exists_digits_eq d
  have hlength := Text.length_digits_le hk h.coefficient
  rw [hzeros, List.length_append] at hlength
  omega

theorem length_text_le (hk : 0 < k) (h : d.Short k) (layout : NumberLayout) :
    (d.text layout).length ≤ 3 * k + layout.exponentWidth + 6 := by
  have hdigits := length_significantDigits_le hk h
  have hcount := Text.digitCount_le h.coefficient
  have hexponent := h.exponent
  have hpoint := Text.length_withPoint_le d.significantDigits d.size
  have hpower := Text.length_withExponent_le layout d.significantDigits (d.size - 1)
  unfold size at hpoint hpower
  unfold text
  dsimp only
  split
  · rw [size]
    omega
  · rw [size]
    omega

/-! ### Decimals of numbers -/

/-- A number of digits that is enough for the multiples of the unit of a format. -/
def unitRoom (F : Format) : Nat := F.top / F.stride + F.precision

/-- A number of digits that is enough for every magnitude of a format. -/
def room (F : Format) : Nat := unitRoom F + F.scale + 18

theorem unitsInOne_lt (F : Format) : F.one < 10 ^ (F.scale + 1) := by
  rw [Format.one, Nat.one_shiftLeft]
  exact Nat.lt_of_le_of_lt (Nat.pow_le_pow_left (by decide) _) (Nat.pow_lt_pow_succ (by decide : 1 < 10))

section
variable {r : Nat} (hr : r < F.top)
include hr

theorem units_lt_ten_pow : F.units r < 10 ^ unitRoom F := by
  calc F.units r
    _ < 2 ^ (r / F.stride + F.precision) := F.units_lt_two_pow r
    _ ≤ 10 ^ (r / F.stride + F.precision) := Nat.pow_le_pow_left (by decide : 2 ≤ 10) _
    _ ≤ 10 ^ unitRoom F :=
        Nat.pow_le_pow_right (by decide) (Nat.add_le_add_right (Nat.div_le_div_right (Nat.le_of_lt hr)) _)

theorem short_exact : Short (room F) (exact F r) := by
  refine ⟨?_, ?_⟩
  · calc F.units r * 5 ^ F.scale
      _ < 10 ^ unitRoom F * 10 ^ F.scale := by
          refine Nat.mul_lt_mul_of_lt_of_le (units_lt_ten_pow hr) (Nat.pow_le_pow_left (by decide) _) ?_
          exact Nat.pow_pos (by decide)
      _ ≤ 10 ^ room F := by
          rw [← Nat.pow_add]
          exact Nat.pow_le_pow_right (by decide) (by unfold room; omega)
  · show (-(F.scale : Int)).natAbs ≤ room F
    unfold room
    omega

theorem leadingExponent_bounds :
    -(F.scale + 1 : Int) ≤ leadingExponent (F.units r) F.one ∧ leadingExponent (F.units r) F.one ≤ unitRoom F := by
  have hgreat := Text.digitCount_le (Nat.lt_of_le_of_lt (Nat.div_le_self (F.units r) F.one) (units_lt_ten_pow hr))
  have hsmall : Text.digitCount ((F.one - 1) / F.units r) ≤ F.scale + 1 :=
    Text.digitCount_le (Nat.lt_of_le_of_lt (Nat.le_trans (Nat.div_le_self _ _) (Nat.sub_le _ _)) (unitsInOne_lt F))
  unfold leadingExponent
  split <;> omega

theorem short_of_withDigits? {count : Nat} (hcount : count ≤ digitLimit) (h : withDigits? F r count = some d) :
    Short (room F) d := by
  obtain ⟨hleast, hgreatest⟩ := leadingExponent_bounds hr
  have hmem := List.mem_of_find?_eq_some h
  obtain ⟨e, he⟩ : ∃ e, e = leadingExponent (F.units r) F.one - (count - 1 : Nat) := ⟨_, rfl⟩
  rw [← he] at hmem
  have hsteps : count - 1 ≤ 16 := by
    unfold digitLimit at hcount
    omega
  have hnum : F.units r * 10 ^ (-e).toNat < 10 ^ (unitRoom F + (F.scale + 17)) := by
    rw [Nat.pow_add]
    refine Nat.mul_lt_mul_of_lt_of_le (units_lt_ten_pow hr) (Nat.pow_le_pow_right (by decide) (by omega)) ?_
    exact Nat.pow_pos (by decide)
  have hroom : 10 ^ (unitRoom F + (F.scale + 17)) < 10 ^ room F :=
    Nat.pow_lt_pow_right (by decide) (by unfold room; omega)
  have hbelow := Nat.div_le_self (F.units r * 10 ^ (-e).toNat) (F.one * 10 ^ e.toNat)
  have hnear := nearestEven_le (F.units r * 10 ^ (-e).toNat) (F.one * 10 ^ e.toNat)
  have hexponent : e.natAbs ≤ room F := by
    unfold room
    omega
  simp only [List.mem_cons, List.not_mem_nil, or_false] at hmem
  rcases hmem with rfl | rfl
  · refine ⟨?_, hexponent⟩
    show nearestEven (F.units r * 10 ^ (-e).toNat) (F.one * 10 ^ e.toNat) < _
    omega
  · refine ⟨?_, hexponent⟩
    dsimp only [Nat.pow_eq]
    split <;> omega

theorem short_shortest : Short (room F) (shortest F r) := by
  unfold shortest
  cases h : (List.range digitLimit).findSome? fun k => withDigits? F r (k + 1) with
  | none => exact short_exact hr
  | some d =>
    obtain ⟨k, hk, hd⟩ := List.exists_of_findSome?_eq_some h
    exact short_of_withDigits? hr (List.mem_range.mp hk) hd

end

end Decimal

/-- No text of a number is longer than its format allows for. -/
theorem Number.length_text_le {F : Format} (x : Number F) : x.text.length ≤ 3 * Decimal.room F + 9 := by
  have hsign (s : Bool) : (signText s).length ≤ 1 := by cases s <;> decide
  unfold text
  split
  · exact Nat.le_trans (by decide : _ ≤ 9) (Nat.le_add_left _ _)
  · rename_i s
    have := hsign s
    rw [List.length_append]
    show (signText s).length + 3 ≤ _
    omega
  · rename_i s r
    have := hsign s
    rw [List.length_append]
    split
    · show (signText s).length + 3 ≤ _
      omega
    · have hroom : 0 < Decimal.room F := Nat.succ_pos _
      have := Decimal.length_text_le hroom (Decimal.short_shortest r.isLt) NumberLayout.plain
      have hwidth : NumberLayout.plain.exponentWidth = 2 := rfl
      omega

end OnlineLearning
