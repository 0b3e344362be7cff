import OnlineLearning.Binary.Arithmetic

/-! # The natural logarithm

A positive number is a power of two times a number from one up to two. The logarithm of the latter
is summed from the series of the inverse hyperbolic tangent in fixed point, far finer than the
result, which is rounded once. -/

namespace OnlineLearning.Gaussian

/-- Bits after the point in the sums. -/
def fixedBits : Nat := 160

def fixedOne : Nat := 1 <<< fixedBits

/-- The terms `z ^ k / k` for odd `k` from `k` on, where `power` is `z ^ k` and `square` is `z ^ 2`.
-/
def oddPowers (square : Nat) : (terms : Nat) → (k power : Nat) → Nat
  | 0, _, _ => 0
  | n + 1, k, power => power / k + oddPowers square n (k + 2) (power * square / fixedOne)

/-- The logarithm of `num / den` in fixed point, for a quotient from one to two. -/
def fixedLog (num den : Nat) : Nat :=
  let z := (num - den) * fixedOne / (num + den)
  2 * oddPowers (z * z / fixedOne) fixedBits 1 z

/-- The logarithm of a number; zero and the infinity keep their limits, and negative numbers have
none. -/
def log : Double → Double
  | .nan => .nan
  | .infinite s => if s then .nan else .infinite false
  | .finite s r =>
    if r.val = 0 then .infinite true
    else if s then .nan
    else
      let u := Format.double.units r
      let exponent := u.log2
      let value : Int := (fixedLog u (1 <<< exponent) : Int) +
        ((exponent : Int) - Format.double.scale) * (fixedLog 2 1 : Int)
      if value = 0 then .ofRank false 0
      else .round (value < 0) (value.natAbs * Format.double.one) fixedOne

end OnlineLearning.Gaussian
