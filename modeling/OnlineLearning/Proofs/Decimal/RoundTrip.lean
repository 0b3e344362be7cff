import OnlineLearning.Proofs.Decimal.Places
import OnlineLearning.Proofs.Decimal.Scale

/-!
# The text of a number reads back

The text of a decimal shows its digits without the zeros at the end, and the place of the first of them by a
point or by an exponent. Either way it is read as a decimal of the same value, with zeros behind it at most
(`exists_read?_text`). The decimal of a number has the rank of that number, so the text of a number is read as
the number: `read?_text`.
-/

namespace OnlineLearning

theorem Text.length_digits {n : Nat} (h : n ≠ 0) : (Text.digits n).length = Text.digitCount n := by
  induction n using Nat.strongRecOn with
  | ind n ih =>
    rw [Text.digitCount, if_neg h]
    rcases Nat.lt_or_ge n 10 with hn | hn
    · have hdiv : n / 10 = 0 := Nat.div_eq_of_lt hn
      rw [Text.digits_of_lt hn, hdiv, Text.digitCount, if_pos rfl]
      rfl
    · rw [Text.digits_of_le hn, List.length_append, ih (n / 10) (by omega) (by omega), List.length_singleton]

namespace Decimal
variable {F : Format} {d : Decimal}

/-! ### Significant digits -/

theorem exists_digits_eq (d : Decimal) :
    ∃ k, Text.digits d.coefficient = d.significantDigits ++ List.replicate k '0' := by
  obtain ⟨zeros, hzeros⟩ : ∃ zeros, zeros = (Text.digits d.coefficient).reverse.takeWhile (· = '0') := ⟨_, rfl⟩
  have hall : ∀ c ∈ zeros.reverse, c = '0' := by
    intro c hc
    rw [hzeros, List.mem_reverse] at hc
    simpa using List.mem_takeWhile_imp hc
  refine ⟨zeros.reverse.length, ?_⟩
  rw [← List.eq_replicate_of_mem hall, significantDigits, ← List.reverse_append, hzeros,
    List.takeWhile_append_dropWhile, List.reverse_reverse]

theorem isLatinDigit_of_mem_significantDigits (d : Decimal) :
    ∀ c ∈ d.significantDigits, Text.isLatinDigit c = true := by
  obtain ⟨k, hk⟩ := exists_digits_eq d
  intro c hc
  refine Text.isLatinDigit_of_mem_digits d.coefficient c ?_
  rw [hk]
  exact List.mem_append_left _ hc

/-- A decimal without the zeros at its end. -/
def reduced (d : Decimal) : Decimal :=
  ⟨Text.digitsValue d.significantDigits, d.size - d.significantDigits.length⟩

theorem exists_eq_withZeros (hd : d.coefficient ≠ 0) : ∃ k, d = d.reduced.withZeros k := by
  obtain ⟨k, hk⟩ := exists_digits_eq d
  refine ⟨k, ?_⟩
  have hvalue := Text.digitsValue_digits d.coefficient
  have hlength := Text.length_digits hd
  rw [hk, Text.digitsValue_append, Text.digitsValue_replicate, Nat.add_zero, List.length_replicate] at hvalue
  rw [hk, List.length_append, List.length_replicate] at hlength
  obtain ⟨coefficient, exponent⟩ := d
  simp only [reduced, withZeros, size, Decimal.mk.injEq]
  refine ⟨hvalue.symm, ?_⟩
  dsimp only at hlength
  omega

theorem significantDigits_ne_nil (hd : d.coefficient ≠ 0) : d.significantDigits ≠ [] := by
  intro hnil
  obtain ⟨k, hk⟩ := exists_eq_withZeros hd
  rw [reduced, hnil] at hk
  exact hd (by rw [hk]; exact Nat.zero_mul _)

theorem rank_reduced (hd : d.coefficient ≠ 0) : d.reduced.rank F = d.rank F := by
  obtain ⟨k, hk⟩ := exists_eq_withZeros hd
  exact ((congrArg (rank F) hk).trans (rank_withZeros _ k)).symm

/-! ### Layouts -/

theorem exists_withPoint {ds : List Char} (hds : ∀ c ∈ ds, Text.isLatinDigit c = true) (hne : ds ≠ [])
    (place : Int) : ∃ whole fraction k, Text.withPoint ds place = whole ++ '.' :: fraction ∧ fraction ≠ [] ∧
      Pointed (withZeros ⟨Text.digitsValue ds, place - ds.length⟩ k) whole fraction := by
  have hzeros : ∀ k, ∀ c ∈ List.replicate k '0', Text.isLatinDigit c = true := by
    intro k c hc
    rw [List.eq_of_mem_replicate hc]
    decide
  have hzero : ∀ c ∈ ['0'], Text.isLatinDigit c = true := hzeros 1
  unfold Text.withPoint
  split
  · rename_i hplace
    refine ⟨['0'], List.replicate (-place).toNat '0' ++ ds, 0, rfl, ?_, hzero, List.cons_ne_nil _ _, ?_, ?_⟩
    · exact List.append_ne_nil_of_right_ne_nil _ hne
    · exact List.forall_mem_append.mpr ⟨hzeros _, hds⟩
    · rw [← List.append_assoc, Text.digitsValue_append, ← List.replicate_one, List.replicate_append_replicate,
        Text.digitsValue_replicate, withZeros]
      simp only [Nat.zero_mul, Nat.zero_add, Nat.pow_zero, Nat.mul_one, List.length_append, List.length_replicate,
        Decimal.mk.injEq, true_and]
      omega
  · split
    · rename_i hplace hlength
      refine ⟨ds ++ List.replicate (place.toNat - ds.length) '0', ['0'], place.toNat - ds.length + 1, ?_,
        List.cons_ne_nil _ _, ?_, ?_, hzero, ?_⟩
      · rfl
      · exact List.forall_mem_append.mpr ⟨hds, hzeros _⟩
      · exact List.append_ne_nil_of_left_ne_nil hne _
      · rw [List.append_assoc, Text.digitsValue_append, ← List.replicate_one, List.replicate_append_replicate,
          Text.digitsValue_replicate, List.length_replicate, withZeros]
        simp only [Nat.add_zero, List.length_replicate, Decimal.mk.injEq, true_and]
        omega
    · rename_i hplace hlength
      refine ⟨ds.take place.toNat, ds.drop place.toNat, 0, rfl, ?_, ?_, ?_, ?_, ?_⟩
      · rw [ne_eq, List.drop_eq_nil_iff]
        omega
      · exact fun c hc => hds c (List.mem_of_mem_take hc)
      · rw [ne_eq, List.take_eq_nil_iff, not_or]
        exact ⟨by omega, hne⟩
      · exact fun c hc => hds c (List.mem_of_mem_drop hc)
      · rw [List.take_append_drop, List.length_drop, withZeros]
        simp only [Nat.pow_zero, Nat.mul_one, Decimal.mk.injEq, true_and]
        omega

/-- Digits with an exponent are read at the place that the exponent gives to the first of them. -/
theorem exists_withExponent {ds : List Char} (hds : ∀ c ∈ ds, Text.isLatinDigit c = true) (hne : ds ≠ [])
    (layout : NumberLayout) (lead : Int) : ∃ first fraction power,
      Text.withExponent layout ds lead = mantissa [first] fraction ++
        'e' :: (if decide (lead < 0) then '-' else '+') :: power ∧
      (∀ c ∈ power, Text.isLatinDigit c = true) ∧
      Pointed ⟨Text.digitsValue ds, 1 - ds.length⟩ [first] fraction ∧
      read? (Text.withExponent layout ds lead) = some ⟨Text.digitsValue ds, lead + 1 - ds.length⟩ := by
  obtain ⟨first, fraction, rfl⟩ := List.exists_cons_of_ne_nil hne
  obtain ⟨power, hpowerEq⟩ : ∃ power, power = Text.padZeros layout.exponentWidth (Text.digits lead.natAbs) := ⟨_, rfl⟩
  have hpower : ∀ c ∈ power, Text.isLatinDigit c = true := by
    rw [hpowerEq]
    exact Text.isLatinDigit_of_mem_padZeros (Text.isLatinDigit_of_mem_digits _) _
  have hpowerne : power ≠ [] := by
    rw [hpowerEq]
    exact List.append_ne_nil_of_right_ne_nil _ (Text.digits_ne_nil _)
  have hpowerValue : Text.digitsValue power = lead.natAbs := by
    rw [hpowerEq, Text.digitsValue_padZeros, Text.digitsValue_digits]
  have htext : Text.withExponent layout (first :: fraction) lead = mantissa [first] fraction ++
      'e' :: (if decide (lead < 0) then '-' else '+') :: power := by
    have hshort : (first :: fraction).length ≤ 1 ↔ fraction = [] := by simp
    rw [hpowerEq]
    simp only [Text.withExponent, mantissa, hshort, List.take_succ_cons, List.take_zero, List.drop_succ_cons,
      List.drop_zero, decide_eq_true_eq]
  have hpointed : Pointed ⟨Text.digitsValue (first :: fraction), 1 - (first :: fraction).length⟩ [first] fraction := by
    refine ⟨fun c hc => hds c ?_, List.cons_ne_nil _ _, fun c hc => hds c (List.mem_cons_of_mem _ hc), ?_⟩
    · rw [List.mem_singleton.mp hc]
      exact List.mem_cons_self ..
    · simp only [List.singleton_append, List.length_cons, Decimal.mk.injEq, true_and]
      omega
  refine ⟨first, fraction, power, htext, hpower, hpointed, ?_⟩
  rw [htext, hpointed.read?_exponent hpower hpowerne, hpowerValue]
  simp only [Option.some.injEq, Decimal.mk.injEq, true_and, decide_eq_true_eq]
  split <;> omega

/-- Whether a decimal is laid out with a point only. -/
def IsPositional (d : Decimal) : Prop := -4 ≤ d.size - 1 ∧ d.size - 1 ≤ 15

theorem text_of_isPositional (h : d.IsPositional) :
    d.text .plain = Text.withPoint d.significantDigits d.size := if_pos h

theorem text_of_not_isPositional (h : ¬ d.IsPositional) :
    d.text .plain = Text.withExponent .plain d.significantDigits (d.size - 1) := if_neg h

/-- The text of a decimal is a mantissa that is read as the decimal, or one with an exponent behind it. -/
theorem text_cases (hd : d.coefficient ≠ 0) :
    (∃ whole fraction k, d.text .plain = mantissa whole fraction ∧ Pointed (d.reduced.withZeros k) whole fraction) ∨
      ∃ first fraction sign power, d.text .plain = mantissa [first] fraction ++ 'e' :: sign :: power ∧
        sign ∈ ['+', '-'] ∧ (∀ c ∈ power, Text.isLatinDigit c = true) ∧
        (∃ d', Pointed d' [first] fraction) ∧ read? (d.text .plain) = some (d.reduced.withZeros 0) := by
  have hds := isLatinDigit_of_mem_significantDigits d
  have hne := significantDigits_ne_nil hd
  by_cases hpositional : d.IsPositional
  · obtain ⟨whole, fraction, k, htext, hfraction, hpointed⟩ := exists_withPoint hds hne d.size
    refine .inl ⟨whole, fraction, k, ?_, hpointed⟩
    rw [text_of_isPositional hpositional, htext, mantissa, if_neg hfraction]
  · obtain ⟨first, fraction, power, htext, hpower, hpointed, hread⟩ :=
      exists_withExponent hds hne .plain (d.size - 1)
    rw [text_of_not_isPositional hpositional]
    refine .inr ⟨first, fraction, _, power, htext, ?_, hpower, ⟨_, hpointed⟩, ?_⟩
    · split <;> decide
    · rw [hread, reduced, withZeros]
      simp only [Nat.pow_zero, Nat.mul_one, Option.some.injEq, Decimal.mk.injEq, true_and]
      omega

/-- What holds of digits and of the characters that place them holds of the text of a decimal. -/
theorem forall_mem_text {P : Char → Prop} (hd : d.coefficient ≠ 0) (hdigit : ∀ c, Text.isLatinDigit c = true → P c)
    (hplace : ∀ c ∈ ['.', 'e', '+', '-'], P c) : ∀ c ∈ d.text .plain, P c := by
  have hpoint : P '.' := hplace '.' (by decide)
  rcases text_cases hd with
    ⟨whole, fraction, k, htext, hpointed⟩ | ⟨first, fraction, sign, power, htext, hsign, hpower, ⟨d', hpointed⟩, -⟩
  · rw [htext]
    exact hpointed.forall_mem hdigit hpoint
  · rw [htext]
    refine List.forall_mem_append.mpr ⟨hpointed.forall_mem hdigit hpoint, ?_⟩
    exact List.forall_mem_cons.mpr ⟨hplace 'e' (by decide), List.forall_mem_cons.mpr
      ⟨hplace sign (List.mem_cons_of_mem _ (List.mem_cons_of_mem _ hsign)), fun c hc => hdigit c (hpower c hc)⟩⟩

/-- The text of a decimal starts with a digit, and is read as the decimal but for zeros at the end. -/
theorem exists_read?_text (hd : d.coefficient ≠ 0) :
    (∃ c rest, d.text .plain = c :: rest ∧ Text.isLatinDigit c = true) ∧
      ∃ k, read? (d.text .plain) = some (d.reduced.withZeros k) := by
  rcases text_cases hd with
    ⟨whole, fraction, k, htext, hpointed⟩ | ⟨first, fraction, sign, power, htext, -, -, ⟨d', hpointed⟩, hread⟩
  · rw [htext]
    exact ⟨hpointed.exists_first, k, hpointed.read?_mantissa⟩
  · obtain ⟨c, rest, hfirst, hc⟩ := hpointed.exists_first
    have hbegin : d.text .plain = c :: (rest ++ 'e' :: sign :: power) := by rw [htext, hfirst, List.cons_append]
    exact ⟨⟨c, _, hbegin, hc⟩, 0, hread⟩

theorem isPlain_text (hd : d.coefficient ≠ 0) : ∀ c ∈ d.text .plain, Text.isPlain c = true :=
  forall_mem_text hd (fun _ hc => Text.isPlain_of_isLatinDigit hc) (Text.forall_mem_of_all rfl)

end Decimal

namespace Number
variable {F : Format}

theorem coefficient_shortest_ne_zero {r : Nat} (h : 0 < r) : (Decimal.shortest F r).coefficient ≠ 0 := by
  intro hzero
  have hrank := Decimal.rank_shortest (F := F) r
  rw [Decimal.rank, Decimal.numerator, hzero, Nat.zero_mul, Nat.zero_mul,
    F.nearest_zero (Decimal.denominator_pos _)] at hrank
  omega

/-- What holds of digits, of the characters that place them, and of the letters of the words that are no
decimals, holds of the text of a number. -/
theorem forall_mem_text {P : Char → Prop} (hdigit : ∀ c, Text.isLatinDigit c = true → P c)
    (hplace : ∀ c ∈ ['.', 'e', '+', '-'], P c) (hword : ∀ c ∈ ['n', 'a', 'i', 'f'], P c) (x : Number F) :
    ∀ c ∈ x.text, P c := by
  have hsign : ∀ s, ∀ c ∈ signText s, P c := by
    intro s c hc
    cases s with
    | false => cases hc
    | true =>
      obtain rfl := List.mem_singleton.mp hc
      exact hplace '-' (by decide)
  have hsub : ∀ cs : List Char, cs ⊆ ['n', 'a', 'i', 'f'] → ∀ c ∈ cs, P c := fun cs h c hc => hword c (h hc)
  cases x with
  | nan => exact hsub "nan".toList (by decide)
  | infinite s => exact List.forall_mem_append.mpr ⟨hsign s, hsub "inf".toList (by decide)⟩
  | finite s r =>
    rw [text]
    refine List.forall_mem_append.mpr ⟨hsign s, ?_⟩
    split
    · have hzero : P '0' := hdigit '0' (by decide)
      exact List.forall_mem_cons.mpr ⟨hzero, List.forall_mem_cons.mpr
        ⟨hplace '.' (by decide), List.forall_mem_singleton.mpr hzero⟩⟩
    · rename_i hr
      exact Decimal.forall_mem_text (coefficient_shortest_ne_zero (Nat.pos_of_ne_zero hr)) hdigit hplace

/-- The text of a number is read as the number. -/
theorem read?_text (hscale : 0 < F.scale) (x : Number F) : read? x.text = some x := by
  cases x with
  | nan => rfl
  | infinite s => cases s <;> rfl
  | finite s r =>
    rw [text]
    split
    · rename_i hr
      have hpointed := Decimal.pointed_zero
      show read? (signText s ++ Decimal.mantissa ['0'] ['0']) = _
      rw [read?_signText s hpointed.isPlain hpointed.exists_first, hpointed.read?_mantissa, Option.map_some,
        Decimal.toNumber, if_pos (.inl rfl), ofRank, dif_pos r.pos, ← Fin.eq_mk_iff_val_eq.mpr hr]
    · rename_i hr
      have hpos : 0 < r.val := Nat.pos_of_ne_zero hr
      have hd := coefficient_shortest_ne_zero (F := F) hpos
      have hplain := Decimal.isPlain_text hd
      obtain ⟨hfirst, k, hread⟩ := Decimal.exists_read?_text hd
      have hrank : ((Decimal.shortest F r).reduced.withZeros k).rank F = r.val := by
        rw [Decimal.rank_withZeros, Decimal.rank_reduced hd, Decimal.rank_shortest]
      rw [read?_signText s hplain hfirst, hread, Option.map_some,
        Decimal.toNumber_eq_ofRank hscale (by rw [hrank]; exact hpos) (by rw [hrank]; exact r.isLt), hrank, ofRank,
        dif_pos r.isLt]

end Number

end OnlineLearning
