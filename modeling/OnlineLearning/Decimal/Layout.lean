import OnlineLearning.Decimal.Shortest

/-! # Numbers as text

A decimal is laid out positionally or with an exponent, by the place of its leading digit; the
record `NumberLayout.plain` fixes where the one style ends and the other begins. `fixed` is the
other way to write a number: a given count of decimal places, rounded from the exact value. -/

namespace OnlineLearning

/-- Where positional notation ends, and how wide an exponent is at least. -/
structure NumberLayout where
  leastLead : Int
  greatestLead : Int
  exponentWidth : Nat

/-- Leading digits from the fourth decimal place up to sixteen whole places are written
positionally; exponents have a sign and at least two digits. -/
def NumberLayout.plain : NumberLayout := ⟨-4, 15, 2⟩

namespace Text

/-- `cs` with zeros in front, at least `width` long. -/
def padZeros (width : Nat) (cs : List Char) : List Char :=
  List.replicate (width - cs.length) '0' ++ cs

/-- Digits with a point after the first `place` of them, zeros filled in where there are none, and
at least one digit on either side. -/
def withPoint (ds : List Char) (place : Int) : List Char :=
  if place ≤ 0 then '0' :: '.' :: (List.replicate (-place).toNat '0' ++ ds)
  else if ds.length ≤ place.toNat then
    ds ++ List.replicate (place.toNat - ds.length) '0' ++ ['.', '0']
  else ds.take place.toNat ++ '.' :: ds.drop place.toNat

/-- Digits in the style of one leading digit and an exponent. -/
def withExponent (layout : NumberLayout) (ds : List Char) (lead : Int) : List Char :=
  let fraction := if ds.length ≤ 1 then [] else '.' :: ds.drop 1
  let sign := if lead < 0 then '-' else '+'
  ds.take 1 ++ fraction ++ 'e' :: sign :: padZeros layout.exponentWidth (digits lead.natAbs)

end Text

namespace Decimal

/-- The digits of a decimal without the zeros at the end. -/
def significantDigits (d : Decimal) : List Char :=
  ((Text.digits d.coefficient).reverse.dropWhile (· = '0')).reverse

/-- The text of a nonzero decimal. -/
def text (layout : NumberLayout) (d : Decimal) : List Char :=
  let lead := d.size - 1
  if layout.leastLead ≤ lead ∧ lead ≤ layout.greatestLead then
    Text.withPoint d.significantDigits d.size
  else Text.withExponent layout d.significantDigits lead

end Decimal

namespace Number

variable {F : Format}

def signText (negative : Bool) : List Char := if negative then ['-'] else []

/-- The shortest text that reads back as a number. -/
def text : Number F → List Char
  | nan => "nan".toList
  | infinite s => signText s ++ "inf".toList
  | finite s r =>
    signText s ++
      if r.val = 0 then "0.0".toList else (Decimal.shortest F r).text NumberLayout.plain

/-- A number with `places` decimal places; halves go to the even neighbour. -/
def fixed (places : Nat) : Number F → List Char
  | nan => "nan".toList
  | infinite s => signText s ++ "inf".toList
  | finite s r =>
    let ds := Text.padZeros (places + 1)
      (Text.digits (nearestEven (F.units r * Nat.pow 10 places) F.one))
    signText s ++ ds.take (ds.length - places) ++
      if places = 0 then [] else '.' :: ds.drop (ds.length - places)

/-- The number nearest to the decimal with `places` places that is nearest to `x`. -/
def roundTo (places : Nat) : Number F → Number F
  | finite s r =>
    Decimal.toNumber F s ⟨nearestEven (F.units r * Nat.pow 10 places) F.one, -places⟩
  | x => x

end Number

end OnlineLearning
