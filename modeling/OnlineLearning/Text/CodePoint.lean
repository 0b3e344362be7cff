/-! # Texts in memory

A text in memory is a list of code points. Most are characters; the others are halves of pairs of code units that
stand alone. They come from escapes in data and can be compared, split and quoted like characters, but a file takes
characters only. -/

namespace OnlineLearning

/-- A character, or one of the 2048 halves of pairs of code units. -/
inductive CodePoint where
  | char (c : Char)
  | half (index : Fin 0x800)
deriving DecidableEq

/-- A text in memory. -/
abbrev CodePoints := List CodePoint

namespace CodePoint

/-- The code point of a single code unit. -/
def ofUnit (n : Nat) : CodePoint :=
  if h : 0xd800 ≤ n ∧ n < 0xe000 then half ⟨n - 0xd800, by omega⟩ else char (Char.ofNat n)

def number : CodePoint → Nat
  | char c => c.toNat
  | half index => 0xd800 + index

def isHalf : CodePoint → Bool
  | char _ => false
  | half _ => true

end CodePoint

namespace CodePoints

def ofChars (cs : List Char) : CodePoints := cs.map .char

instance : Coe String CodePoints := ⟨fun s => ofChars s.toList⟩

/-- The characters of a text without halves. -/
def chars? : CodePoints → Option (List Char)
  | [] => some []
  | .char c :: s => (chars? s).map (c :: ·)
  | .half _ :: _ => none

theorem ofChars_inj {cs cs' : List Char} : ofChars cs = ofChars cs' ↔ cs = cs' :=
  List.map_inj_right fun _ _ h => CodePoint.char.inj h

theorem chars?_ofChars (cs : List Char) : chars? (ofChars cs) = some cs := by
  induction cs with
  | nil => rfl
  | cons c cs ih => exact congrArg (Option.map (c :: ·)) ih

theorem chars?_eq_some_iff {s : CodePoints} {cs : List Char} : s.chars? = some cs ↔ s = ofChars cs := by
  refine ⟨fun h => ?_, fun h => h ▸ chars?_ofChars cs⟩
  fun_induction chars? s generalizing cs with
  | case1 =>
    obtain rfl := Option.some.inj h
    rfl
  | case2 c s ih =>
    obtain ⟨cs', hcs', rfl⟩ := Option.map_eq_some_iff.mp h
    exact congrArg (.char c :: ·) (ih hcs')
  | case3 => cases h

end CodePoints

end OnlineLearning
