import OnlineLearning.Binary.Arithmetic
import OnlineLearning.Fault
import OnlineLearning.Random.Seed

/-! # Sources of random draws

A source starts from a seed and draws from a state: fractions from zero up to one, floats between two
others, and whole numbers below a bound. What uses a source depends on nothing else. `Generator` is the
source of a program that names no other: a linear congruence of 128 bits, whose output is folded to 64 bits
and rotated by its own leading bits. Draws below a bound multiply a random word by it and keep the high
part, and are repeated in the few cases that would favour some numbers. -/

namespace OnlineLearning.Random

/-- A way to draw from states that come from a seed. -/
structure Source where
  State : Type
  start : (seed : Int) → Except Fault State
  fraction : State → Double × State
  between : (least greatest : Double) → State → Double × State
  below : (bound : Int) → State → Except Fault (Fin bound.toNat × State)

/-- The high part of a product with a word is below the other factor. -/
theorem mul_shiftRight_lt {width : Nat} (w : BitVec width) {k : Nat} (hk : 0 < k) : (w.toNat * k) >>> width < k := by
  rw [Nat.shiftRight_eq_div_pow, Nat.div_lt_iff_lt_mul (Nat.two_pow_pos width), Nat.mul_comm k]
  exact Nat.mul_lt_mul_of_pos_right w.isLt hk

/-- The state of a generator: a number, an odd increment, and the half of a draw that was kept for later. -/
structure Generator where
  state : BitVec 128
  increment : BitVec 128
  half? : Option (BitVec 32) := none
deriving DecidableEq

namespace Generator

def multiplier : BitVec 128 := 0x2360ED051FC65DA44385DF649FCCF645

/-- One step of the congruence. -/
def advance (g : Generator) : Generator := { g with state := g.state * multiplier + g.increment }

def ofSeed (seed : Nat) : Generator :=
  let ws := (Pool.ofSeed seed).draw 8
  let pair (i : Nat) := ofWords ((ws.drop i).take 2)
  let number (i : Nat) := BitVec.ofNat 128 ((pair i <<< 64) + pair (i + 2))
  let increment := number 4 * 2 + 1
  advance ⟨increment + number 0, increment, none⟩

def word64 (g : Generator) : BitVec 64 × Generator :=
  let g := g.advance
  (((g.state >>> 64).setWidth 64 ^^^ g.state.setWidth 64).rotateRight (g.state >>> 122).toNat, g)

/-- Draws a word of 32 bits: the kept half of a draw, or the low half of a new one. -/
def word32 (g : Generator) : BitVec 32 × Generator :=
  match g.half? with
  | some half => (half, { g with half? := none })
  | none =>
    let (w, g) := g.word64
    (w.setWidth 32, { g with half? := some ((w >>> 32).setWidth 32) })

def fraction (g : Generator) : Double × Generator :=
  let (w, g) := g.word64
  (.round false ((w.toNat >>> 11) * Format.double.one) (1 <<< 53), g)

def between (least greatest : Double) (g : Generator) : Double × Generator :=
  let (x, g) := g.fraction
  (least + (greatest - least) * x, g)

/-- How often a draw is repeated at most; a draw is repeated less than every other time. -/
def repetitions : Nat := 1024

/-- Draws a number below `k` from words of `width` bits. The first argument bounds the repetitions. -/
def belowFrom {width k : Nat} (word : Generator → BitVec width × Generator) (hk : 0 < k) :
    Nat → Generator → Fin k × Generator
  | 0, g => (⟨0, hk⟩, g)
  | n + 1, g =>
    let (w, g) := word g
    let low := w.toNat * k % (1 <<< width)
    if low < k ∧ low < ((1 <<< width) - k) % k then belowFrom word hk n g
    else (⟨(w.toNat * k) >>> width, mul_shiftRight_lt w hk⟩, g)

/-- Draws a number below `k`. -/
def below {k : Nat} (hk : 0 < k) (g : Generator) : Fin k × Generator :=
  if k ≤ 1 then (⟨0, hk⟩, g)
  else if k < 1 <<< 32 then belowFrom word32 hk repetitions g
  else if hall : k = 1 <<< 32 then
    let (w, g) := g.word32
    (⟨w.toNat, by rw [hall]; exact w.isLt⟩, g)
  else belowFrom word64 hk repetitions g

/-- The greatest bound of a draw. -/
def limit : Nat := 1 <<< 63

/-- Generators start from no negative seed, and draw below positive bounds within their limit. -/
def source : Source where
  State := Generator
  start seed := if seed < 0 then .error .negativeSeed else .ok (ofSeed seed.toNat)
  fraction := fraction
  between := between
  below bound g :=
    if h : bound ≤ 0 then .error .emptyDraw
    else if bound > limit then .error .hugeDraw
    else .ok (g.below (by omega))

end Generator

end OnlineLearning.Random
