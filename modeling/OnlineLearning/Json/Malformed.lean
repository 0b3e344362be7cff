import OnlineLearning.Text.Digit

/-! # What can be wrong with a line of data

A malformed text is described by its first fault and where it stands: an offset in characters from
the start, and the line and column of that offset. -/

namespace OnlineLearning.Json

/-- The first fault of a malformed text. -/
inductive Cause where
  | byteOrderMark
  | expectingValue
  | expectingName
  | expectingColon
  | expectingComma
  | extraData
  | unterminatedText
  | controlCharacter
  | badEscape
  | badCodePoint
deriving DecidableEq

def Cause.message : Cause → String
  | .byteOrderMark => "Unexpected UTF-8 BOM (decode using utf-8-sig)"
  | .expectingValue => "Expecting value"
  | .expectingName => "Expecting property name enclosed in double quotes"
  | .expectingColon => "Expecting ':' delimiter"
  | .expectingComma => "Expecting ',' delimiter"
  | .extraData => "Extra data"
  | .unterminatedText => "Unterminated string starting at"
  | .controlCharacter => "Invalid control character at"
  | .badEscape => "Invalid \\escape"
  | .badCodePoint => "Invalid \\uXXXX escape"

/-- A fault and its place. -/
structure Malformed where
  cause : Cause
  line : Nat
  column : Nat
  offset : Nat
deriving DecidableEq

/-- A fault at an offset of a text. Lines and columns count from one. -/
def Malformed.inText (text : List Char) (cause : Cause) (offset : Nat) : Malformed :=
  let before := text.take offset
  ⟨cause, before.count '\n' + 1, (before.reverse.takeWhile (· ≠ '\n')).length + 1, offset⟩

def Malformed.message (m : Malformed) : String :=
  s!"{m.cause.message}: line {m.line} column {m.column} (char {m.offset})"

end OnlineLearning.Json
