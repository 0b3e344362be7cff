import OnlineLearning.Text.CodePoint
import OnlineLearning.Text.Printable

/-! # Quoted text

A quoted text stands between single quotes, or between double quotes if it holds a single quote and
no double one. Backslashes and the quote in use are escaped, and so is every unprintable character,
by a letter where it has one and by its code point otherwise. Halves of pairs are unprintable. -/

namespace OnlineLearning.Text

/-- The digit of a number below sixteen. -/
def hexChar (d : Nat) : Char :=
  if d < 10 then Char.ofNat ('0'.toNat + d) else Char.ofNat ('a'.toNat + (d - 10))

/-- The last `width` hexadecimal digits of a number. -/
def hexDigits : (width : Nat) → Nat → List Char
  | 0, _ => []
  | width + 1, n => hexDigits width (n / 16) ++ [hexChar (n % 16)]

/-- The escape of a code point by its number. -/
def numberEscape (n : Nat) : List Char :=
  if n < 0x100 then '\\' :: 'x' :: hexDigits 2 n
  else if n < 0x10000 then '\\' :: 'u' :: hexDigits 4 n
  else '\\' :: 'U' :: hexDigits 8 n

/-- The text of one character between quotes of kind `quote`. -/
def quoteChar (quote c : Char) : List Char :=
  if c = quote ∨ c = '\\' then ['\\', c]
  else if c = '\n' then ['\\', 'n']
  else if c = '\r' then ['\\', 'r']
  else if c = '\t' then ['\\', 't']
  else if isPrintable c then [c]
  else numberEscape c.toNat

def quotePoint (quote : Char) : CodePoint → List Char
  | .char c => quoteChar quote c
  | p => numberEscape p.number

/-- The quote that a text is written between. -/
def quoteFor (s : CodePoints) : Char :=
  if .char '\'' ∈ s ∧ .char '"' ∉ s then '"' else '\''

def quoted (s : CodePoints) : List Char :=
  quoteFor s :: s.flatMap (quotePoint (quoteFor s)) ++ [quoteFor s]

end OnlineLearning.Text

namespace OnlineLearning.CodePoints

/-- A text where only characters can stand: halves are escaped. -/
def shown (s : CodePoints) : List Char :=
  s.flatMap fun
    | .char c => [c]
    | p => Text.numberEscape p.number

instance : CoeTail CodePoints (List Char) := ⟨shown⟩

instance : CoeTail CodePoints String := ⟨fun s => String.ofList s⟩

end OnlineLearning.CodePoints
