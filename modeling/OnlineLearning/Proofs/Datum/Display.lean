import OnlineLearning.Datum.Text
import OnlineLearning.Proofs.Decimal.RoundTrip
import OnlineLearning.Proofs.Json.Values

/-!
# Scalars as text

A text stands for itself, so it may look like any other datum. Among the other scalars the text shows
what it is of: integers have digits only, a float has a point, an exponent or a word and is read as a
number, and the truth values are words that are no number. So scalars of which all or none are texts can
be told apart by what is displayed (`Scalar.eq_of_display`).
-/

namespace OnlineLearning

namespace Text

/-- Whether there is nothing but digits and signs. -/
def isWhole (cs : List Char) : Bool := cs.all fun c => c = '-' || isLatinDigit c

theorem isWhole_of_isLatinDigit {cs : List Char} (h : ∀ c ∈ cs, isLatinDigit c = true) : isWhole cs = true := by
  refine List.all_eq_true.mpr fun c hc => ?_
  rw [h c hc, Bool.or_true]

theorem isWhole_intDigits (n : Int) : isWhole (intDigits n) = true := by
  cases n with
  | ofNat n => exact isWhole_of_isLatinDigit (isLatinDigit_of_mem_digits n)
  | negSucc n =>
    show (true && isWhole (digits (n + 1))) = true
    rw [isWhole_of_isLatinDigit (isLatinDigit_of_mem_digits (n + 1)), Bool.true_and]

theorem isWhole_eq_false {cs : List Char} {c : Char} (hc : c ∈ cs) (hsign : c ≠ '-') (hdigit : isLatinDigit c = false) :
    isWhole cs = false := by
  refine List.all_eq_false.mpr ⟨c, hc, ?_⟩
  simp [hsign, hdigit]

theorem digits_injective {m n : Nat} (h : digits m = digits n) : m = n := by
  rw [← digitsValue_digits m, h, digitsValue_digits]

theorem digits_ne_sign (n : Nat) (cs : List Char) : digits n ≠ '-' :: cs := by
  intro h
  have hsign := isLatinDigit_of_mem_digits n '-' (by rw [h]; exact List.mem_cons_self ..)
  cases hsign

theorem intDigits_injective {m n : Int} (h : intDigits m = intDigits n) : m = n := by
  cases m with
  | ofNat m =>
    cases n with
    | ofNat n => exact congrArg Int.ofNat (digits_injective h)
    | negSucc n => exact absurd h (digits_ne_sign m _)
  | negSucc m =>
    cases n with
    | ofNat n => exact absurd h.symm (digits_ne_sign n _)
    | negSucc n =>
      have hdigits := digits_injective (List.cons.inj h).2
      exact congrArg Int.negSucc (Nat.succ.inj hdigits)

end Text

namespace Number
variable {F : Format}

/-- A number that is written as text is no row of digits. -/
theorem isWhole_text (x : Number F) : Text.isWhole x.text = false := by
  cases x with
  | nan => rfl
  | infinite s => cases s <;> rfl
  | finite s r =>
    rw [text]
    split
    · exact Text.isWhole_eq_false (c := '.') (List.mem_append_right _ (by decide)) (by decide) (by decide)
    · rename_i hr
      have hd := coefficient_shortest_ne_zero (F := F) (Nat.pos_of_ne_zero hr)
      have hds := Decimal.isLatinDigit_of_mem_significantDigits (Decimal.shortest F r)
      have hne := Decimal.significantDigits_ne_nil hd
      by_cases hpositional : (Decimal.shortest F r).IsPositional
      · obtain ⟨whole, fraction, k, htext, -, -⟩ := Decimal.exists_withPoint hds hne (Decimal.shortest F r).size
        rw [Decimal.text_of_isPositional hpositional, htext]
        refine Text.isWhole_eq_false (c := '.') (List.mem_append_right _ ?_) (by decide) (by decide)
        exact List.mem_append_right _ (List.mem_cons_self ..)
      · obtain ⟨first, fraction, power, htext, -⟩ :=
          Decimal.exists_withExponent hds hne .plain ((Decimal.shortest F r).size - 1)
        rw [Decimal.text_of_not_isPositional hpositional, htext]
        refine Text.isWhole_eq_false (c := 'e') (List.mem_append_right _ ?_) (by decide) (by decide)
        exact List.mem_append_right _ (List.mem_cons_self ..)

theorem text_injective (hscale : 0 < F.scale) {x y : Number F} (h : x.text = y.text) : x = y := by
  have hread := read?_text hscale x
  rw [h, read?_text hscale y] at hread
  exact (Option.some.inj hread).symm

end Number

namespace Datum

def isText : Datum → Bool
  | text _ => true
  | _ => false

theorem isText_iff {d : Datum} : d.isText = true ↔ ∃ s, d = text s := by
  cases d <;> simp [isText]

theorem display_of_isText_eq_false {d : Datum} (h : d.isText = false) : d.display = .ofChars d.quoted := by
  cases d with
  | text s => cases h
  | _ => rfl

/-- The kind of a scalar that is no text, by what is displayed. -/
def shownKind (cs : List Char) : Kind :=
  if Text.isWhole cs then .int
  else if (Number.read? cs : Option Double).isSome then .float
  else .bool

end Datum

namespace Json.Scalar
variable {a b : Datum}

theorem shownKind_quoted (h : Scalar a) (htext : a.isText = false) : Datum.shownKind a.quoted = a.kind := by
  cases h with
  | bool b => cases b <;> decide
  | int n => exact if_pos (Text.isWhole_intDigits n)
  | float x =>
    show Datum.shownKind x.text = .float
    rw [Datum.shownKind, x.isWhole_text, Number.read?_text (by decide)]
    rfl
  | text s => cases htext

/-- Scalars of which both or none is a text are equal if they are displayed alike. -/
theorem eq_of_display (ha : Scalar a) (hb : Scalar b) (htext : a.isText = b.isText)
    (h : a.display = b.display) : a = b := by
  cases hshown : a.isText with
  | true =>
    obtain ⟨s, rfl⟩ := Datum.isText_iff.mp hshown
    obtain ⟨t, rfl⟩ := Datum.isText_iff.mp (htext ▸ hshown)
    exact congrArg Datum.text h
  | false =>
    -- equal texts show one kind, and each kind can be read again
    have hshown' : b.isText = false := htext ▸ hshown
    rw [Datum.display_of_isText_eq_false hshown, Datum.display_of_isText_eq_false hshown', CodePoints.ofChars_inj] at h
    have hkind : a.kind = b.kind := by
      rw [← ha.shownKind_quoted hshown, ← hb.shownKind_quoted hshown', h]
    cases ha with
    | bool x =>
      cases hb with
      | bool y => cases x <;> cases y <;> first | rfl | cases h
      | _ => cases hkind
    | int m =>
      cases hb with
      | int n => exact congrArg Datum.int (Text.intDigits_injective h)
      | _ => cases hkind
    | float x =>
      cases hb with
      | float y => exact congrArg (Datum.float · 0) (Number.text_injective (by decide) h)
      | _ => cases hkind
    | text s => cases hshown

end Json.Scalar

end OnlineLearning
