import OnlineLearning.Decimal.Basic
import OnlineLearning.Text.Blank

/-! # Numbers read from text

A number is an optional sign and digits with an optional point and exponent, or one of the names
`inf`, `infinity` and `nan` in any case. White space around it is ignored, digits may be of any
script, and a single underscore may stand between two digits. -/

namespace OnlineLearning

namespace Text

/-- The Latin digit for a digit of any script; other characters stay. -/
def latinDigit (c : Char) : Char :=
  match digitValue? c with
  | some d => digitChar d
  | none => c

/-- Takes out the underscores; each must stand between two digits. -/
def withoutUnderscores? (previous : Option Char) : List Char → Option (List Char)
  | [] => some []
  | '_' :: rest =>
    match previous, rest with
    | some a, b :: _ =>
      if isLatinDigit a && isLatinDigit b then withoutUnderscores? (some '_') rest else none
    | _, _ => none
  | c :: rest => (withoutUnderscores? (some c) rest).map (c :: ·)

/-- Splits off a sign; true stands for minus. -/
def takeSign : List Char → Bool × List Char
  | '-' :: rest => (true, rest)
  | '+' :: rest => (false, rest)
  | cs => (false, cs)

/-- The small form of a Latin letter. -/
def lowerLatin (cs : List Char) : List Char := cs.map Char.toLower

/-- A text in the form that numbers are read from: trimmed, with Latin digits, no underscores. -/
def numeral? (cs : List Char) : Option (List Char) :=
  withoutUnderscores? none ((trimBy isWhiteSpace cs).map latinDigit)

/-- The integer that a whole text writes: an optional sign and at least one digit. -/
def readInt? (cs : List Char) : Option Int := do
  let (negative, ds) := takeSign (← numeral? cs)
  if ds.isEmpty || !ds.all isLatinDigit then none
  else some (if negative then -(digitsValue ds : Int) else digitsValue ds)

end Text

namespace Decimal

/-- The decimal that a whole text without a sign writes. -/
def read? (cs : List Char) : Option Decimal :=
  let whole := cs.takeWhile Text.isLatinDigit
  let rest := cs.dropWhile Text.isLatinDigit
  let afterPoint := if rest.head? = some '.' then rest.tail else []
  let fraction := afterPoint.takeWhile Text.isLatinDigit
  let tail := if rest.head? = some '.' then afterPoint.dropWhile Text.isLatinDigit else rest
  if whole.isEmpty && fraction.isEmpty then none
  else
    let value := Text.digitsValue (whole ++ fraction)
    match tail with
    | [] => some ⟨value, -fraction.length⟩
    | e :: power =>
      let (negative, ds) := Text.takeSign power
      if (e = 'e' ∨ e = 'E') ∧ ¬ds.isEmpty ∧ ds.all Text.isLatinDigit then
        let shift : Int := if negative then -(Text.digitsValue ds) else Text.digitsValue ds
        some ⟨value, shift - fraction.length⟩
      else none

end Decimal

namespace Number

variable {F : Format}

/-- The number that a whole text writes, rounded once. -/
def read? (cs : List Char) : Option (Number F) := do
  let (negative, body) := Text.takeSign (← Text.numeral? cs)
  let name := Text.lowerLatin body
  if name = "inf".toList ∨ name = "infinity".toList then some (.infinite negative)
  else if name = "nan".toList then some .nan
  else (Decimal.read? body).map (Decimal.toNumber F negative)

end Number

end OnlineLearning
