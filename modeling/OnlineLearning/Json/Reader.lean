import OnlineLearning.Decimal.Reading
import OnlineLearning.Fault

/-! # Data read from text

One datum is read from a whole text. The reader keeps what is left of the text and how many
characters are behind it, and stops at the first fault. Arrays become lists, objects become
dictionaries in which the last value of a name wins and stays where the name first stood; the three
names of numbers that are not finite are read too. Integers are read exactly, up to a limit on their
digits. -/

namespace OnlineLearning.Json

/-- Why a text is not read. -/
inductive Refusal where
  /-- The text is malformed at an offset. -/
  | malformed (cause : Cause) (offset : Nat)
  /-- An integer has too many digits. -/
  | tooManyDigits (count : Nat)
deriving DecidableEq

/-- What is left of a text, and the offset where it starts. -/
structure Cursor where
  rest : List Char
  offset : Nat

namespace Cursor

def advance (c : Cursor) (n : Nat) : Cursor := ⟨c.rest.drop n, c.offset + n⟩

/-- The cursor after the blanks that may stand between parts. -/
def skipBlanks (c : Cursor) : Cursor :=
  c.advance (c.rest.takeWhile fun x => x = ' ' || x = '\t' || x = '\n' || x = '\r').length

def refuse {α : Type} (c : Cursor) (cause : Cause) : Except Refusal α :=
  .error (.malformed cause c.offset)

end Cursor

/-- The character that a letter after a backslash stands for. -/
def escape? : Char → Option Char
  | '"' => some '"'
  | '\\' => some '\\'
  | '/' => some '/'
  | 'b' => some '\x08'
  | 'f' => some '\x0c'
  | 'n' => some '\n'
  | 'r' => some '\r'
  | 't' => some '\t'
  | _ => none

def hexValue? (c : Char) : Option Nat :=
  if '0' ≤ c ∧ c ≤ '9' then some (c.toNat - '0'.toNat)
  else if 'a' ≤ c ∧ c ≤ 'f' then some (c.toNat - 'a'.toNat + 10)
  else if 'A' ≤ c ∧ c ≤ 'F' then some (c.toNat - 'A'.toNat + 10)
  else none

/-- The value of four hexadecimal digits at the start of `cs`, which must not end with them. -/
def codeUnit? : List Char → Option Nat
  | a :: b :: c :: d :: _ :: _ => do
    let a ← hexValue? a
    let b ← hexValue? b
    let c ← hexValue? c
    let d ← hexValue? d
    return ((a * 16 + b) * 16 + c) * 16 + d
  | _ => none

def isHighUnit (n : Nat) : Bool := 0xd800 ≤ n && n < 0xdc00

def isLowUnit (n : Nat) : Bool := 0xdc00 ≤ n && n < 0xe000

/-- The character of a pair of code units. -/
def pairedChar (high low : Nat) : Char :=
  Char.ofNat (0x10000 + (high - 0xd800) * 0x400 + (low - 0xdc00))

/-- Reads what follows the backslash and the letter of a code point: the code point, and how many
characters of `cs` write it. A half of a pair without the other is one by itself. -/
def readCodePoint (cs : List Char) (offset : Nat) : Except Refusal (CodePoint × Nat) :=
  match codeUnit? cs with
  | none => .error (.malformed .badCodePoint (offset - 1))
  | some unit =>
    match isHighUnit unit, cs.drop 4 with
    | true, '\\' :: 'u' :: more =>
      -- too little text for a second code unit leaves the first one alone
      if more.length ≤ 4 then .ok (.ofUnit unit, 4)
      else
        match codeUnit? more with
        | none => .error (.malformed .badCodePoint (offset + 5))
        | some second =>
          if isLowUnit second then .ok (.char (pairedChar unit second), 10) else .ok (.ofUnit unit, 4)
    | _, _ => .ok (.ofUnit unit, 4)

/-- Reads the code points of a text up to its closing quote. `start` is the offset of the opening
quote and `done` holds the code points read, last first. Each step uses up one of the first argument.
-/
def readTextFrom (start : Nat) : Nat → CodePoints → Cursor → Except Refusal (CodePoints × Cursor)
  | 0, _, _ => .error (.malformed .unterminatedText start)
  | steps + 1, done, c =>
    match c.rest with
    | [] => .error (.malformed .unterminatedText start)
    | '"' :: _ => .ok (done.reverse, c.advance 1)
    | '\\' :: rest =>
      match rest with
      | [] => .error (.malformed .unterminatedText start)
      | 'u' :: digits => do
        let (p, length) ← readCodePoint digits (c.offset + 2)
        readTextFrom start steps (p :: done) (c.advance (2 + length))
      | x :: _ =>
        match escape? x with
        | some y => readTextFrom start steps (.char y :: done) (c.advance 2)
        | none => c.refuse .badEscape
    | x :: _ =>
      if x.toNat < 0x20 then c.refuse .controlCharacter
      else readTextFrom start steps (.char x :: done) (c.advance 1)

/-- Reads a text whose opening quote is at the cursor. -/
def readText (c : Cursor) : Except Refusal (CodePoints × Cursor) :=
  readTextFrom c.offset (c.rest.length + 1) [] (c.advance 1)

/-- The characters of an exponent at the start of `cs`, if there is a whole one. -/
def exponentPart (cs : List Char) : List Char :=
  match cs with
  | e :: rest =>
    if e = 'e' ∨ e = 'E' then
      let sign := rest.takeWhile (fun c => c = '+' || c = '-') |>.take 1
      let ds := (rest.drop sign.length).takeWhile Text.isLatinDigit
      if ds.isEmpty then [] else e :: sign ++ ds
    else []
  | [] => []

/-- The characters of a fraction at the start of `cs`, if there is a whole one. -/
def fractionPart (cs : List Char) : List Char :=
  match cs with
  | '.' :: rest =>
    let ds := rest.takeWhile Text.isLatinDigit
    if ds.isEmpty then [] else '.' :: ds
  | _ => []

/-- The characters of a whole number at the start of `cs`: a zero, or digits that start with another
one. -/
def wholePart (cs : List Char) : List Char :=
  match cs with
  | '0' :: _ => ['0']
  | _ => cs.takeWhile Text.isLatinDigit

def readNumber (c : Cursor) : Except Refusal (Datum × Cursor) :=
  let sign := c.rest.takeWhile (· = '-') |>.take 1
  let unsigned := c.rest.drop sign.length
  let whole := wholePart unsigned
  let fraction := fractionPart (unsigned.drop whole.length)
  let exponent := exponentPart (unsigned.drop (whole.length + fraction.length))
  let written := whole ++ fraction ++ exponent
  let next := c.advance (sign.length + written.length)
  if whole.isEmpty then c.refuse .expectingValue
  else if fraction.isEmpty && exponent.isEmpty then
    if whole.length > Fault.digitLimit then .error (.tooManyDigits whole.length)
    else
      let n : Int := Text.digitsValue whole
      .ok (.int (if sign.isEmpty then n else -n), next)
  else
    match Decimal.read? written with
    | some d => .ok (.float (d.toNumber .double !sign.isEmpty) 0, next)
    | none => c.refuse .expectingValue

/-- The words that stand for data. All not-a-numbers of a text are one. -/
def words : List (List Char × Datum) :=
  [("null".toList, .null), ("true".toList, .bool true), ("false".toList, .bool false),
   ("NaN".toList, .float .nan 0), ("Infinity".toList, .float (.infinite false) 0),
   ("-Infinity".toList, .float (.infinite true) 0)]

/-- Reads a word or a number. -/
def readPlain (c : Cursor) : Except Refusal (Datum × Cursor) :=
  match words.find? fun w => w.1.isPrefixOf c.rest with
  | some (word, d) => .ok (d, c.advance word.length)
  | none => readNumber c

mutual

/-- Reads the datum at the cursor. Each character read uses up at most two of the first argument. -/
def readDatum : Nat → Cursor → Except Refusal (Datum × Cursor)
  | 0, c => c.refuse .expectingValue
  | depth + 1, c =>
    match c.rest with
    | '"' :: _ => do
      let (s, c) ← readText c
      return (.text s, c)
    | '[' :: _ =>
      let inner := (c.advance 1).skipBlanks
      if inner.rest.head? = some ']' then .ok (.list [], inner.advance 1)
      else readItems depth [] inner
    | '\x7b' :: _ =>
      let inner := (c.advance 1).skipBlanks
      if inner.rest.head? = some '\x7d' then .ok (.dict [], inner.advance 1)
      else readEntries depth [] inner
    | _ => readPlain c

/-- Reads the items of an array from the cursor to the closing bracket; `done` holds those read,
last first. -/
def readItems : Nat → List Datum → Cursor → Except Refusal (Datum × Cursor)
  | 0, _, c => c.refuse .expectingValue
  | steps + 1, done, c => do
    let (x, c) ← readDatum steps c
    let c := c.skipBlanks
    match c.rest with
    | ']' :: _ => return (.list (x :: done).reverse, c.advance 1)
    | ',' :: _ => readItems steps (x :: done) (c.advance 1).skipBlanks
    | _ => c.refuse .expectingComma

/-- Reads the entries of an object from the cursor to the closing brace; `done` holds those read. -/
def readEntries : Nat → List (Datum × Datum) → Cursor → Except Refusal (Datum × Cursor)
  | 0, _, c => c.refuse .expectingName
  | steps + 1, done, c =>
    if c.rest.head? ≠ some '"' then c.refuse .expectingName
    else do
      let (name, c) ← readText c
      let c := c.skipBlanks
      if c.rest.head? ≠ some ':' then c.refuse .expectingColon
      else
        let (value, c) ← readDatum steps (c.advance 1).skipBlanks
        let c := c.skipBlanks
        let done := Datum.setEntry (.text name) value done
        match c.rest with
        | '\x7d' :: _ => return (.dict done, c.advance 1)
        | ',' :: _ => readEntries steps done (c.advance 1).skipBlanks
        | _ => c.refuse .expectingComma

end

/-- Reads the one datum that a whole text writes. -/
def read (text : List Char) : Except Refusal Datum :=
  if text.head? = some '\ufeff' then .error (.malformed .byteOrderMark 0)
  else do
    let (d, c) ← readDatum (2 * text.length + 2) (Cursor.mk text 0).skipBlanks
    let c := c.skipBlanks
    if c.rest.isEmpty then return d else c.refuse .extraData

end OnlineLearning.Json
