/-! # Seeds

A seed of any size is split into words of 32 bits and mixed into a pool of four, from which the
state of a generator is drawn. All arithmetic is modulo `2 ^ 32`. -/

namespace OnlineLearning.Random

/-- The words of a number in base `2 ^ 32`, lowest first; zero has none. -/
def words (n : Nat) : List UInt32 :=
  if n = 0 then [] else UInt32.ofNat n :: words (n >>> 32)
termination_by n
decreasing_by omega

/-- Folds the high half of a word into the low one. -/
def fold (v : UInt32) : UInt32 := v ^^^ (v >>> 16)

/-- A hash that changes with every use: the constant of the next use, and the hash of a word. -/
def hash (h v : UInt32) : UInt32 × UInt32 :=
  let h' := h * 0x931e8875
  (h', fold ((v ^^^ h) * h'))

/-- Mixes a hashed word into a word of the pool. -/
def mix (x y : UInt32) : UInt32 := fold (0xca01f9dd * x - 0x4973f715 * y)

/-- The pool with its constant of the next hash. -/
structure Pool where
  constant : UInt32 := 0x43b0d7e5
  words : List UInt32 := []
deriving DecidableEq

namespace Pool

def size : Nat := 4

def push (p : Pool) (word : UInt32) : Pool :=
  let (constant, v) := hash p.constant word
  ⟨constant, p.words ++ [v]⟩

/-- The pool with a word hashed into the one at `i`. -/
def mixAt (p : Pool) (word : UInt32) (i : Nat) : Pool :=
  let (constant, v) := hash p.constant word
  ⟨constant, p.words.modify i (mix · v)⟩

/-- Mixes the word at `source` into all others. -/
def spread (p : Pool) (source : Nat) : Pool :=
  (List.range size).foldl
    (fun p i => if i = source then p else p.mixAt (p.words.getD source 0) i) p

/-- Mixes a word into the whole pool. -/
def absorb (p : Pool) (word : UInt32) : Pool :=
  (List.range size).foldl (fun p i => p.mixAt word i) p

def ofSeed (seed : Nat) : Pool :=
  let ws := Random.words seed
  let filled := (List.range size).foldl (fun p i => p.push (ws.getD i 0)) {}
  let mixed := (List.range size).foldl spread filled
  (ws.drop size).foldl absorb mixed

/-- Draws `count` words from a pool, from the place `i` on. -/
def drawFrom (p : Pool) : (count : Nat) → (i : Nat) → (h : UInt32) → List UInt32
  | 0, _, _ => []
  | count + 1, i, h =>
    let h' := h * 0x58f38ded
    fold ((p.words.getD (i % size) 0 ^^^ h) * h') :: drawFrom p count (i + 1) h'

def draw (p : Pool) (count : Nat) : List UInt32 := p.drawFrom count 0 0x8b51f9dd

end Pool

/-- The number that words write in base `2 ^ 32`, lowest first. -/
def ofWords (ws : List UInt32) : Nat := ws.foldr (fun w n => w.toNat + (n <<< 32)) 0

end OnlineLearning.Random
