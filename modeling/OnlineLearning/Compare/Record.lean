import OnlineLearning.Decimal.Reading
import OnlineLearning.Fault
import OnlineLearning.Text.Line

/-! # Summaries read back

A summary is read line by line. Each line is known by the word it starts with, and its figures are
found as the first numbers in it; lines of other kinds and figures that are not there leave the
record as it is. -/

namespace OnlineLearning.Compare

/-- The figures found in a summary. -/
structure Record where
  algorithm : Option String := none
  trace : Option String := none
  phi : Option Double := none
  total : Option Nat := none
  skipped : Option Nat := none
  accuracy : Option Double := none
  mistakes : Option Nat := none
  updates : Option Nat := none
  labels : Option Nat := none
  weights : Option Nat := none
  rate : Option Double := none
  wall : Option Double := none
deriving DecidableEq

/-- The runs of digits of any script in a text. Each step uses up one of the first argument. -/
def digitRuns : Nat → List Char → List (List Char)
  | 0, _ => []
  | steps + 1, cs =>
    let cs := cs.dropWhile fun c => !Text.isDigit c
    if cs.isEmpty then []
    else cs.takeWhile Text.isDigit :: digitRuns steps (cs.dropWhile Text.isDigit)

/-- The characters of a number at the start of a text: a minus sign, digits, and a point with
digits, of which only the first digits have to be there. -/
def numberAt? (cs : List Char) : Option (List Char) :=
  let sign := cs.takeWhile (· = '-') |>.take 1
  let whole := (cs.drop sign.length).takeWhile Text.isLatinDigit
  let rest := cs.drop (sign.length + whole.length)
  let fraction := rest.tail.takeWhile Text.isLatinDigit
  if whole.isEmpty then none
  else if rest.head? = some '.' ∧ ¬fraction.isEmpty then some (sign ++ whole ++ '.' :: fraction)
  else some (sign ++ whole)

/-- The numbers in a text, from left to right. Each step uses up one of the first argument. -/
def numberRuns : Nat → List Char → List (List Char)
  | 0, _ => []
  | steps + 1, cs =>
    match cs with
    | [] => []
    | _ :: rest =>
      match numberAt? cs with
      | some run => run :: numberRuns steps (cs.drop run.length)
      | none => numberRuns steps rest

def wholeNumbers (cs : List Char) : List (List Char) := digitRuns cs.length cs

def toDouble (run : List Char) : Double := (Number.read? run).getD .nan

def floats (cs : List Char) : List Double := (numberRuns cs.length cs).map toDouble

/-- The integer that a run of digits writes. -/
def toNat (run : List Char) : Except Fault Nat :=
  if run.length > Fault.digitLimit then .error (.tooManyDigits run.length)
  else .ok (Text.digitsValue run)

/-- What follows the first colon, trimmed. -/
def afterColon (cs : List Char) : String :=
  String.ofList (Text.trim (cs.dropWhile (· ≠ ':')).tail)

namespace Record

/-- Sets a figure to the first whole number of a line. -/
def setFirst (r : Record) (cs : List Char) (set : Nat → Record) : Except Fault Record :=
  match wholeNumbers cs with
  | [] => .ok r
  | run :: _ => set <$> toNat run

/-- Sets two figures to the first two whole numbers of a line, or neither. -/
def setPair (r : Record) (cs : List Char) (set : Nat → Nat → Record) : Except Fault Record :=
  match wholeNumbers cs with
  | first :: second :: _ => do return set (← toNat first) (← toNat second)
  | _ => .ok r

def takeLine (r : Record) (cs : List Char) : Except Fault Record :=
  let startsWith (word : String) := word.toList.isPrefixOf cs
  if startsWith "Algorithm:" then .ok { r with algorithm := some (afterColon cs) }
  else if startsWith "Trace:" then .ok { r with trace := some (afterColon cs) }
  else if startsWith "Phi:" then
    match floats cs with
    | [] => .ok r
    | x :: _ => .ok { r with phi := some x }
  else if startsWith "Total Examples" then r.setFirst cs fun n => { r with total := some n }
  else if startsWith "Skipped" then r.setFirst cs fun n => { r with skipped := some n }
  else if startsWith "Accuracy" then
    match floats cs with
    | [] => .ok r
    | x :: _ => .ok { r with accuracy := some x }
  else if startsWith "Mistakes" then
    r.setPair cs fun n k => { r with mistakes := some n, updates := some k }
  else if startsWith "Labels" then
    r.setPair cs fun n k => { r with labels := some n, weights := some k }
  else if startsWith "Examples/s" then
    match floats cs with
    | x :: y :: _ => .ok { r with rate := some x, wall := some y }
    | _ => .ok r
  else .ok r

def ofLines (r : Record) : List (List Char) → Except Fault Record
  | [] => .ok r
  | line :: lines => do ofLines (← r.takeLine (Text.trim line)) lines

def ofText (text : String) : Except Fault Record :=
  ofLines {} (Text.lines text.toList)

end Record

end OnlineLearning.Compare
