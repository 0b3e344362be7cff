import OnlineLearning.Binary.Number

/-! # Arithmetic rounded once

Each operation computes its exact result in units and rounds it once to the nearest number.
Operations that leave the finite numbers follow the usual rules: an infinity absorbs, and an
undefined result is not-a-number. -/

namespace OnlineLearning.Number

variable {F : Format}

/-- The rounded sum. A zero sum is negative only if both terms are. -/
def add : Number F → Number F → Number F
  | nan, _ => nan
  | _, nan => nan
  | infinite s, infinite t => if s = t then infinite s else nan
  | infinite s, finite _ _ => infinite s
  | finite _ _, infinite t => infinite t
  | finite s a, finite t b =>
    roundUnits (s && t)
      ((if s then -(F.units a : Int) else F.units a) +
        (if t then -(F.units b : Int) else F.units b))

def sub (x y : Number F) : Number F := add x (neg y)

def mul : Number F → Number F → Number F
  | nan, _ => nan
  | _, nan => nan
  | infinite s, infinite t => infinite (s != t)
  | infinite s, finite t b => if b.val = 0 then nan else infinite (s != t)
  | finite s a, infinite t => if a.val = 0 then nan else infinite (s != t)
  | finite s a, finite t b => round (s != t) (F.units a * F.units b) F.one

def div : Number F → Number F → Number F
  | nan, _ => nan
  | _, nan => nan
  | infinite _, infinite _ => nan
  | infinite s, finite t _ => infinite (s != t)
  | finite s _, infinite t => ofRank (s != t) 0
  | finite s a, finite t b =>
    if b.val = 0 then if a.val = 0 then nan else infinite (s != t)
    else round (s != t) (F.units a * F.one) (F.units b)

/-- The rounded square root. Between two whole numbers of units the half way point stands for every
inexact root: the formats in use keep far fewer bits than the root has. -/
def sqrt : Number F → Number F
  | nan => nan
  | infinite s => if s then nan else infinite false
  | finite s a =>
    if a.val = 0 then finite s a
    else if s then nan
    else
      let n := F.units a * F.one
      let r := floorSqrt n
      round false (2 * r + if r * r = n then 0 else 1) 2

instance : Add (Number F) := ⟨add⟩
instance : Sub (Number F) := ⟨sub⟩
instance : Mul (Number F) := ⟨mul⟩
instance : Div (Number F) := ⟨div⟩

@[simp] theorem nan_add (x : Number F) : nan + x = nan := by
  cases x <;> rfl

@[simp] theorem add_nan (x : Number F) : x + nan = nan := by
  cases x <;> rfl

@[simp] theorem nan_mul (x : Number F) : nan * x = nan := by
  cases x <;> rfl

@[simp] theorem mul_nan (x : Number F) : x * nan = nan := by
  cases x <;> rfl

@[simp] theorem div_nan (x : Number F) : x / nan = nan := by
  cases x <;> rfl

end OnlineLearning.Number
