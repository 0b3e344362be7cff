import OnlineLearning.Datum.Text
import OnlineLearning.Json.Malformed

/-! # Faults

Everything that can go wrong, one constructor for each cause, with the data that its message names.
`Fault.kind` sorts the causes: invalid arguments are those that a run over many examples may skip.
-/

namespace OnlineLearning

inductive Fault.Kind where
  | invalidArgument
  | badValue
  | wrongKind
  | overflow
  | missingFile
  | isDirectory
  | notDirectory
  | fileExists
  | nameTooLong
deriving DecidableEq

/-- The causes of failure. -/
inductive Fault where
  /-- The token is no feature. -/
  | badFeature (token : Datum)
  /-- The clipping range of a quantile is not positive. -/
  | rangeNotPositive (range : Double)
  /-- The confidence parameter is not positive. -/
  | phiNotPositive (phi : Double)
  /-- The confidence level is not above one half and at most one. -/
  | etaOutOfRange (eta : Double)
  /-- An example to learn from has no label. -/
  | noLabel
  /-- An update has no label to move toward the example. -/
  | noActualLabel
  /-- An update moves one label both ways. -/
  | sameLabels (label : Datum)
  /-- A line of a trace is not well formed. -/
  | malformedLine (number : Nat) (malformed : Json.Malformed)
  /-- The text writes no number. -/
  | notANumeral (text : CodePoints)
  /-- Data of this kind are no numbers. -/
  | notANumber (kind : Datum.Kind)
  /-- The integer is beyond all finite floats. -/
  | integerTooLarge
  /-- Data of this kind cannot be keys. -/
  | notAKey (kind : Datum.Kind)
  /-- Data of this kind have no items. -/
  | notIterable (kind : Datum.Kind)
  /-- The integer has too many digits to be read. -/
  | tooManyDigits (count : Nat)
  /-- An integer has too many digits to be shown. -/
  | longInteger
  /-- The halves of pairs that follow on `offset` characters of a line cannot be written to a file. -/
  | notEncodable (offset : Nat) (halves : CodePoints)
  /-- No classifier has this name. -/
  | unknownAlgorithm (name : String)
  /-- There is nothing to draw from. -/
  | emptyDraw
  /-- There is too much to draw from. -/
  | hugeDraw
  /-- A generator cannot start from a negative seed. -/
  | negativeSeed
  /-- There is no such file. -/
  | missingFile (path : String)
  /-- There is a directory where a file is needed. -/
  | isDirectory (path : String)
  /-- There is a file where a directory is needed. -/
  | notDirectory (path : String)
  /-- A file stands where a directory is to be made. -/
  | fileExists (path : String)
  /-- A name or a path has too many bytes. -/
  | nameTooLong (path : String)
  /-- There is a null character in a path. -/
  | nullInPath
  /-- A blank is no path to follow. -/
  | blankPath
  /-- A blank is no path to look at. -/
  | blankPlace
  /-- A blank names no directory. -/
  | blankName
  /-- A blank is no number of things. -/
  | blankCount
  /-- A blank is no part to compare a draw with. -/
  | blankPart

namespace Fault

/-- The greatest number of digits of an integer that is read from text or shown. -/
def digitLimit : Nat := 4300

/-- Where halves of pairs stand that cannot be written. -/
def encodingMessage (offset : Nat) (halves : CodePoints) : String :=
  let place := match halves with
    | [half] => s!"character '{(([half] : CodePoints) : String)}' in position {offset}"
    | _ => s!"characters in position {offset}-{offset + halves.length - 1}"
  s!"'utf-8' codec can't encode {place}: surrogates not allowed"

def message : Fault → String
  | badFeature token =>
    "Invalid feature value representation: " ++ String.ofList token.quoted
  | rangeNotPositive range => "range must be positive: " ++ String.ofList range.text
  | phiNotPositive phi =>
    "Confidence parameter phi must be positive: " ++ String.ofList phi.text
  | etaOutOfRange eta =>
    "Confidence hyperparameter eta must be in range (0.5, 1]: " ++ String.ofList eta.text
  | noLabel => "label must not be None"
  | noActualLabel => "Actual label must not be None"
  | sameLabels label => "Actual label equals to missed label: " ++ (label.display : String)
  | malformedLine number malformed => s!"line {number}: malformed JSON: {malformed.message}"
  | notANumeral text =>
    "could not convert string to float: " ++ String.ofList (Text.quoted text)
  | notANumber kind =>
    "float() argument must be a string or a real number, not '" ++ kind.name ++ "'"
  | integerTooLarge => "int too large to convert to float"
  | notAKey kind => "unhashable type: '" ++ kind.name ++ "'"
  | notIterable kind => "'" ++ kind.name ++ "' object is not iterable"
  | tooManyDigits count =>
    s!"Exceeds the limit ({digitLimit} digits) for integer string conversion: value has " ++
      s!"{count} digits; use sys.set_int_max_str_digits() to increase the limit"
  | longInteger =>
    s!"Exceeds the limit ({digitLimit} digits) for integer string conversion; use " ++
      "sys.set_int_max_str_digits() to increase the limit"
  | notEncodable offset halves => encodingMessage offset halves
  | unknownAlgorithm name => "Unknown algorithm: " ++ name
  | emptyDraw => "high <= 0"
  | hugeDraw => "high is out of bounds for int64"
  | negativeSeed => "expected non-negative integer"
  | missingFile path =>
    "[Errno 2] No such file or directory: " ++ String.ofList (Text.quoted path)
  | isDirectory path => "[Errno 21] Is a directory: " ++ String.ofList (Text.quoted path)
  | notDirectory path => "[Errno 20] Not a directory: " ++ String.ofList (Text.quoted path)
  | fileExists path => "[Errno 17] File exists: " ++ String.ofList (Text.quoted path)
  | nameTooLong path => "[Errno 36] File name too long: " ++ String.ofList (Text.quoted path)
  | nullInPath => "embedded null byte"
  | blankPath => "expected str, bytes or os.PathLike object, not list"
  | blankPlace => "stat: path should be string, bytes, os.PathLike or integer, not list"
  | blankName => "unsupported operand type(s) for /: 'PosixPath' and 'list'"
  | blankCount => "'list' object cannot be interpreted as an integer"
  | blankPart => "'<' not supported between instances of 'float' and 'list'"

def kind : Fault → Kind
  | badFeature _ | rangeNotPositive _ | phiNotPositive _ | etaOutOfRange _ | noLabel
  | noActualLabel | sameLabels _ | malformedLine .. => .invalidArgument
  | notANumeral _ | tooManyDigits _ | longInteger | notEncodable .. | unknownAlgorithm _
  | emptyDraw | hugeDraw | negativeSeed | nullInPath => .badValue
  | notANumber _ | notAKey _ | notIterable _ | blankPath | blankPlace | blankName | blankCount
  | blankPart => .wrongKind
  | integerTooLarge => .overflow
  | missingFile _ => .missingFile
  | isDirectory _ => .isDirectory
  | notDirectory _ => .notDirectory
  | fileExists _ => .fileExists
  | nameTooLong _ => .nameTooLong

end Fault

/-- A computation that ends well has gone well up to each of its steps. -/
theorem exists_of_bind_eq_ok {ε α β : Type} {x : Except ε α} {f : α → Except ε β} {b : β}
    (h : x >>= f = .ok b) : ∃ a, x = .ok a ∧ f a = .ok b := by
  cases x with
  | error e => cases h
  | ok a => exact ⟨a, rfl, h⟩

end OnlineLearning
