import Mathlib.Data.List.TakeWhile
import OnlineLearning.Decimal.Layout
import OnlineLearning.Proofs.Text.Figures
import OnlineLearning.Proofs.Text.Trimming

/-!
# Numbers as they are read from texts

A text of plain characters is read as it stands: nothing is trimmed, translated or left out. So a number is
read from its sign and from the decimal behind it (`read?_signText`), and a decimal from its digits, with the
point that stands among them and the exponent after them.
-/

namespace OnlineLearning

namespace Text
variable {cs body : List Char}

theorem withoutUnderscores?_of_not_mem (h : '_' ∉ cs) (previous : Option Char) :
    withoutUnderscores? previous cs = some cs := by
  induction cs generalizing previous with
  | nil => rfl
  | cons c cs ih =>
    obtain ⟨hc, hcs⟩ : '_' ≠ c ∧ '_' ∉ cs := by simpa using h
    rw [withoutUnderscores?, ih hcs]
    · rfl
    · rintro rfl
      exact hc rfl

theorem trimBy_isWhiteSpace (h : ∀ c ∈ cs, isPlain c = true) : trimBy isWhiteSpace cs = cs := by
  refine trimBy_of_ends (fun c hc => ?_) fun c hc => ?_
  · exact isWhiteSpace_of_isPlain (h c (List.mem_of_mem_head? hc))
  · exact isWhiteSpace_of_isPlain (h c (List.mem_of_mem_getLast? hc))

theorem numeral?_of_isPlain (h : ∀ c ∈ cs, isPlain c = true) : numeral? cs = some cs := by
  have hmap : cs.map latinDigit = cs :=
    (List.map_congr_left fun c hc => latinDigit_of_isPlain (h c hc)).trans (List.map_id _)
  have hunderscore : '_' ∉ cs := fun hmem => absurd (h '_' hmem) (by decide)
  rw [numeral?, trimBy_isWhiteSpace h, hmap, withoutUnderscores?_of_not_mem hunderscore]

theorem exists_digitChar {c : Char} (h : isLatinDigit c = true) : ∃ d < 10, c = digitChar d := by
  rw [isLatinDigit_iff] at h
  refine ⟨c.toNat - 48, by omega, ?_⟩
  have hnat : '0'.toNat + (c.toNat - 48) = c.toNat := by
    show 48 + (c.toNat - 48) = c.toNat
    omega
  rw [digitChar, hnat, Char.ofNat_toNat]

theorem digitsValue_append (a b : List Char) :
    digitsValue (a ++ b) = digitsValue a * 10 ^ b.length + digitsValue b := by
  induction b using List.reverseRecOn with
  | nil => simp [digitsValue]
  | append_singleton b c ih =>
    rw [← List.append_assoc, digitsValue_concat, ih, digitsValue_concat, List.length_append, List.length_singleton,
      Nat.pow_succ, Nat.mul_add, Nat.add_assoc, Nat.mul_comm 10, Nat.mul_assoc]

theorem digitsValue_replicate (n : Nat) : digitsValue (List.replicate n '0') = 0 := by
  induction n with
  | zero => rfl
  | succ n ih =>
    rw [List.replicate_succ', digitsValue_concat, ih]
    rfl

theorem digitValue?_lt {c : Char} {d : Nat} (h : digitValue? c = some d) : d < 10 := by
  obtain ⟨z, hz, rfl⟩ := Option.map_eq_some_iff.mp h
  have hrange := List.find?_some hz
  simp only [Bool.and_eq_true, decide_eq_true_eq] at hrange
  omega

/-- Digits write a number below the power of ten with as many zeros. -/
theorem digitsValue_lt (cs : List Char) : digitsValue cs < 10 ^ cs.length := by
  induction cs using List.reverseRecOn with
  | nil => exact Nat.one_pos
  | append_singleton cs c ih =>
    have hdigit : (digitValue? c).getD 0 < 10 := by
      cases hc : digitValue? c with
      | none => exact Nat.zero_lt_succ 9
      | some d => exact digitValue?_lt hc
    rw [digitsValue_concat, List.length_append, List.length_singleton, Nat.pow_succ]
    omega

end Text

namespace Number
variable {F : Format} {body : List Char}

theorem takeSign_signText (negative : Bool) (h : ∃ c rest, body = c :: rest ∧ Text.isLatinDigit c = true) :
    Text.takeSign (signText negative ++ body) = (negative, body) := by
  obtain ⟨c, rest, rfl, hc⟩ := h
  cases negative with
  | true => rfl
  | false =>
    have hminus : c ≠ '-' := fun e => absurd (e ▸ hc) (by decide)
    have hplus : c ≠ '+' := fun e => absurd (e ▸ hc) (by decide)
    show Text.takeSign (c :: rest) = _
    unfold Text.takeSign
    split
    · rename_i h
      exact absurd (List.cons.inj h).1 hminus
    · rename_i h
      exact absurd (List.cons.inj h).1 hplus
    · rfl

/-- A text that starts with a digit is none of the names of numbers. -/
theorem lowerLatin_ne {c : Char} (hc : Text.isLatinDigit c = true) (rest : List Char) :
    Text.lowerLatin (c :: rest) ≠ "inf".toList ∧ Text.lowerLatin (c :: rest) ≠ "infinity".toList ∧
      Text.lowerLatin (c :: rest) ≠ "nan".toList := by
  have hletters : ∀ d : Fin 10, (Text.digitChar d.val).toLower ≠ 'i' ∧ (Text.digitChar d.val).toLower ≠ 'n' := by
    decide
  obtain ⟨d, hd, rfl⟩ := Text.exists_digitChar hc
  obtain ⟨hi, hn⟩ := hletters ⟨d, hd⟩
  exact ⟨fun h => hi (List.cons.inj h).1, fun h => hi (List.cons.inj h).1, fun h => hn (List.cons.inj h).1⟩

/-- A number is read from its sign and the decimal behind it. -/
theorem read?_signText (negative : Bool) (hplain : ∀ c ∈ body, Text.isPlain c = true)
    (hfirst : ∃ c rest, body = c :: rest ∧ Text.isLatinDigit c = true) :
    (read? (signText negative ++ body) : Option (Number F)) =
      (Decimal.read? body).map (Decimal.toNumber F negative) := by
  have hall : ∀ c ∈ signText negative ++ body, Text.isPlain c = true := by
    intro c hc
    rcases List.mem_append.mp hc with hc | hc
    · cases negative with
      | false => cases hc
      | true =>
        rw [List.mem_singleton.mp hc]
        decide
    · exact hplain c hc
  unfold read?
  rw [Text.numeral?_of_isPlain hall]
  simp only [Option.bind_eq_bind, Option.bind_some]
  rw [takeSign_signText negative hfirst]
  obtain ⟨c, rest, rfl, hc⟩ := hfirst
  obtain ⟨hinf, hinfinity, hnan⟩ := lowerLatin_ne hc rest
  dsimp only
  rw [if_neg (not_or.mpr ⟨hinf, hinfinity⟩), if_neg hnan]

end Number

namespace Decimal
variable {whole fraction power : List Char}

/-- The digits of a decimal before an exponent, with a point unless there are none behind it. -/
def mantissa (whole fraction : List Char) : List Char :=
  whole ++ if fraction = [] then [] else '.' :: fraction

/-- Digits before and behind the point of a decimal. -/
structure Pointed (d : Decimal) (whole fraction : List Char) : Prop where
  whole_digits : ∀ c ∈ whole, Text.isLatinDigit c = true
  whole_ne : whole ≠ []
  fraction_digits : ∀ c ∈ fraction, Text.isLatinDigit c = true
  value_eq : (⟨Text.digitsValue (whole ++ fraction), -fraction.length⟩ : Decimal) = d

theorem pointed_zero : Pointed ⟨0, -1⟩ ['0'] ['0'] := by
  have hzero : ∀ c ∈ ['0'], Text.isLatinDigit c = true := Text.forall_mem_of_all rfl
  exact ⟨hzero, List.cons_ne_nil _ _, hzero, rfl⟩

namespace Pointed
variable {d : Decimal}

theorem forall_mem {P : Char → Prop} (h : Pointed d whole fraction)
    (hdigit : ∀ c, Text.isLatinDigit c = true → P c) (hpoint : P '.') : ∀ c ∈ mantissa whole fraction, P c := by
  intro c hc
  rcases List.mem_append.mp hc with hc | hc
  · exact hdigit c (h.whole_digits c hc)
  · split at hc
    · cases hc
    · rcases List.mem_cons.mp hc with rfl | hc
      · exact hpoint
      · exact hdigit c (h.fraction_digits c hc)

theorem isPlain (h : Pointed d whole fraction) : ∀ c ∈ mantissa whole fraction, Text.isPlain c = true :=
  h.forall_mem (fun _ hc => Text.isPlain_of_isLatinDigit hc) (by decide)

theorem exists_first (h : Pointed d whole fraction) :
    ∃ c rest, mantissa whole fraction = c :: rest ∧ Text.isLatinDigit c = true := by
  obtain ⟨c, rest, hwhole⟩ := List.exists_cons_of_ne_nil h.whole_ne
  have hc := h.whole_digits c (by rw [hwhole]; exact List.mem_cons_self ..)
  rw [mantissa, hwhole]
  exact ⟨c, _, rfl, hc⟩

theorem isEmpty_whole (h : Pointed d whole fraction) : whole.isEmpty = false := by simpa using h.whole_ne

theorem read?_mantissa (h : Pointed d whole fraction) : read? (mantissa whole fraction) = some d := by
  obtain ⟨hwhole, -, hfraction, rfl⟩ := id h
  unfold read? mantissa
  split
  · rename_i hnil
    rw [Text.takeWhile_append_exact hwhole (by simp), Text.dropWhile_append_exact hwhole (by simp)]
    dsimp only
    rw [h.isEmpty_whole, hnil]
    rfl
  · rw [Text.takeWhile_append_exact hwhole (by simp; decide), Text.dropWhile_append_exact hwhole (by simp; decide)]
    simp only [List.head?_cons, List.tail_cons, if_true, h.isEmpty_whole, Bool.false_and, Bool.false_eq_true, if_false]
    rw [List.takeWhile_eq_self_iff.mpr hfraction, List.dropWhile_eq_nil_iff.mpr hfraction]

theorem read?_exponent (h : Pointed d whole fraction) (hpower : ∀ c ∈ power, Text.isLatinDigit c = true)
    (hne : power ≠ []) (negative : Bool) :
    read? (mantissa whole fraction ++ 'e' :: (if negative then '-' else '+') :: power) =
      some ⟨d.coefficient,
        d.exponent + if negative then -(Text.digitsValue power : Int) else Text.digitsValue power⟩ := by
  obtain ⟨hwhole, -, hfraction, rfl⟩ := id h
  have hsign : Text.takeSign ((if negative then '-' else '+') :: power) = (negative, power) := by
    cases negative <;> rfl
  have hall : power.all Text.isLatinDigit = true := List.all_eq_true.mpr hpower
  unfold read? mantissa
  split
  · rename_i hnil
    rw [List.append_nil, Text.takeWhile_append_exact hwhole (by simp; decide),
      Text.dropWhile_append_exact hwhole (by simp; decide)]
    simp [h.isEmpty_whole, hnil, hsign, hall, hne]
  · rw [List.append_assoc, List.cons_append, Text.takeWhile_append_exact hwhole (by simp; decide),
      Text.dropWhile_append_exact hwhole (by simp; decide)]
    simp only [List.head?_cons, List.tail_cons, if_true, h.isEmpty_whole, Bool.false_and, Bool.false_eq_true,
      if_false]
    rw [Text.takeWhile_append_exact hfraction (by simp; decide), Text.dropWhile_append_exact hfraction (by simp; decide)]
    simp [hsign, hall, hne, Int.sub_eq_add_neg, Int.add_comm]

end Pointed

end Decimal

end OnlineLearning
