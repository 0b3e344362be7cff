import OnlineLearning.Json.Reader
import OnlineLearning.Learning.Notice
import OnlineLearning.Text.Line

/-! # Traces of labelled examples

A trace has an example on each line: an object with a list of tokens under `features` and a label
under `label`. Blank lines are passed over, other data are dropped with a notice, and malformed
lines are faults that a reader may skip. -/

namespace OnlineLearning.Trace

/-- What a line of a trace holds. -/
inductive Entry where
  | blank
  | labelled (tokens : List Datum) (label : Datum)
  | dropped (notice : Notice)
  | malformed (fault : Fault)

/-- The value of a name in the entries of an object. -/
def member (name : String) (entries : List (Datum × Datum)) : Datum :=
  match entries.find? fun e => e.1.agrees (.text name) with
  | some e => e.2
  | none => .null

/-- What a datum on a line holds. -/
def Entry.ofDatum (number : Nat) : Datum → Entry
  | .dict entries =>
    match member "features" entries, member "label" entries with
    | .list tokens, label =>
      if label.isNull then .dropped (.incomplete number) else .labelled tokens label
    | _, _ => .dropped (.incomplete number)
  | _ => .dropped (.notAnObject number)

/-- Reads a line. An integer with too many digits is not a matter of form, and is a fault of its
own. -/
def readLine (number : Nat) (line : List Char) : Except Fault Entry :=
  if line.all Text.isBlank then .ok .blank
  else
    match Json.read line with
    | .ok d => .ok (Entry.ofDatum number d)
    | .error (.malformed cause offset) =>
      .ok (.malformed (.malformedLine number (.inText line cause offset)))
    | .error (.tooManyDigits count) => .error (.tooManyDigits count)

/-- What reading a trace gives: its examples, its skipped lines, notices, and the fault that ended
it early. -/
structure Loaded where
  examples : List (List Datum × Datum) := []
  skipped : List (Nat × Fault) := []
  notices : List Notice := []
  fault? : Option Fault := none

/-- Takes up one line; after a fault nothing more is taken up. -/
def Loaded.takeLine (skipMalformed : Bool) (l : Loaded) (line : List Char × Nat) : Loaded :=
  if l.fault?.isSome then l
  else
    match readLine line.2 line.1 with
    | .error e => { l with fault? := some e }
    | .ok .blank => l
    | .ok (.labelled tokens label) => { l with examples := l.examples ++ [(tokens, label)] }
    | .ok (.dropped n) => { l with notices := l.notices ++ [n] }
    | .ok (.malformed e) =>
      if skipMalformed then { l with skipped := l.skipped ++ [(line.2, e)] }
      else { l with fault? := some e }

def numberedLines (text : String) : List (List Char × Nat) :=
  (Text.lines text.toList).zipIdx 1

def load (skipMalformed : Bool) (text : String) : Loaded :=
  (numberedLines text).foldl (Loaded.takeLine skipMalformed) {}

end OnlineLearning.Trace
