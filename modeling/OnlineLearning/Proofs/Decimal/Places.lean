import OnlineLearning.Proofs.Decimal.Numerals

/-!
# Numbers with a given count of decimal places

A finite number with decimal places is written as its sign and the mantissa of a whole number of such places.
What is read from that text is the number that rounding to so many places gives: `read?_fixed`.
-/

namespace OnlineLearning

namespace Text
variable {cs : List Char}

theorem isLatinDigit_of_mem_padZeros (h : ∀ c ∈ cs, isLatinDigit c = true) (width : Nat) :
    ∀ c ∈ padZeros width cs, isLatinDigit c = true := by
  intro c hc
  rcases List.mem_append.mp hc with hc | hc
  · rw [List.eq_of_mem_replicate hc]
    decide
  · exact h c hc

theorem digitsValue_padZeros (width : Nat) (cs : List Char) : digitsValue (padZeros width cs) = digitsValue cs := by
  rw [padZeros, digitsValue_append, digitsValue_replicate, Nat.zero_mul, Nat.zero_add]

theorem le_length_padZeros (width : Nat) (cs : List Char) : width ≤ (padZeros width cs).length := by
  rw [padZeros, List.length_append, List.length_replicate]
  omega

end Text

namespace Number
variable {F : Format} {places : Nat}

theorem exists_fixed_eq (hplaces : 0 < places) (s : Bool) (r : Fin F.top) : ∃ whole fraction,
    (finite s r).fixed places = signText s ++ Decimal.mantissa whole fraction ∧
      fraction ≠ [] ∧
      Decimal.Pointed ⟨nearestEven (F.units r * Nat.pow 10 places) F.one, -places⟩ whole fraction := by
  generalize hn : nearestEven (F.units r * Nat.pow 10 places) F.one = n
  have hdigits := Text.isLatinDigit_of_mem_padZeros (Text.isLatinDigit_of_mem_digits n) (places + 1)
  have hlength := Text.le_length_padZeros (places + 1) (Text.digits n)
  have hvalue : Text.digitsValue (Text.padZeros (places + 1) (Text.digits n)) = n := by
    rw [Text.digitsValue_padZeros, Text.digitsValue_digits]
  unfold fixed
  dsimp only
  rw [hn]
  generalize Text.padZeros (places + 1) (Text.digits n) = ds at hdigits hlength hvalue ⊢
  have hfraction : (ds.drop (ds.length - places)).length = places := by
    rw [List.length_drop]
    omega
  have hwhole : (ds.take (ds.length - places)).length ≠ 0 := by
    rw [List.length_take]
    omega
  have hne : ds.drop (ds.length - places) ≠ [] := by
    rw [← List.length_pos_iff, hfraction]
    exact hplaces
  refine ⟨ds.take (ds.length - places), ds.drop (ds.length - places), ?_, hne, ?_⟩
  · rw [if_neg (Nat.ne_of_gt hplaces), Decimal.mantissa, if_neg hne, List.append_assoc]
  · exact ⟨fun c hc => hdigits c (List.mem_of_mem_take hc), fun h => hwhole (by rw [h]; rfl),
      fun c hc => hdigits c (List.mem_of_mem_drop hc), by rw [List.take_append_drop, hvalue, hfraction]⟩

/-- A number with decimal places is read as the number rounded to them. -/
theorem read?_fixed (hplaces : 0 < places) (x : Number F) : read? (x.fixed places) = some (x.roundTo places) := by
  cases x with
  | nan => rfl
  | infinite s => cases s <;> rfl
  | finite s r =>
    obtain ⟨whole, fraction, htext, -, hpointed⟩ := exists_fixed_eq hplaces s r
    rw [htext, read?_signText s hpointed.isPlain hpointed.exists_first, hpointed.read?_mantissa]
    rfl

end Number

end OnlineLearning
