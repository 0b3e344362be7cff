import OnlineLearning.Binary.Arithmetic
import OnlineLearning.Text.Digit

/-! # Decimals and the numbers nearest to them

A decimal is a whole coefficient times a power of ten. `toNumber` rounds it once to a binary format;
decimals beyond the format's range are recognised by their digit count, so that no huge power of ten
is ever formed. -/

namespace OnlineLearning

/-- The decimal `coefficient * 10 ^ exponent`. -/
structure Decimal where
  coefficient : Nat
  exponent : Int
deriving DecidableEq

namespace Decimal

/-- The numerator of the exact value over `denominator`. -/
def numerator (d : Decimal) : Nat := d.coefficient * Nat.pow 10 d.exponent.toNat

/-- The power of ten under `numerator`. -/
def denominator (d : Decimal) : Nat := Nat.pow 10 (-d.exponent).toNat

def rank (F : Format) (d : Decimal) : Nat := F.nearest (d.numerator * F.one) d.denominator

/-- The position of the leading digit: a nonzero decimal is below `10 ^ size`, and at least a tenth
of it. -/
def size (d : Decimal) : Int := Text.digitCount d.coefficient + d.exponent

/-- The number nearest to a decimal, with a sign. -/
def toNumber (F : Format) (negative : Bool) (d : Decimal) : Number F :=
  if d.coefficient = 0 ∨ d.size ≤ -F.scale then .ofRank negative 0
  else if d.size > F.top / F.stride + F.precision then .infinite negative
  else .ofRank negative (d.rank F)

end Decimal

end OnlineLearning
