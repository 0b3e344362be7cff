import OnlineLearning.Compare.Record
import OnlineLearning.Csv
import OnlineLearning.Decimal.Layout
import OnlineLearning.Replay.Run
import OnlineLearning.Text.Parts

/-! # Comparing runs

Each directory below a base directory that holds a summary gives a row. Rows are set against the
baseline, the first row of a perceptron, by the difference of their accuracies. The table is printed
and written beside the directories. -/

namespace OnlineLearning.Compare

/-- A row of the comparison: the figures of a run, and its accuracy less that of the baseline. -/
structure Row where
  record : Record
  delta : Option Double
deriving DecidableEq

/-- The records of the directories with the given names, those without a summary left out. A record
without an algorithm takes the name of its directory. -/
def records (files : FileTree) (base : String) : List String → Except Fault (List Record)
  | [] => .ok []
  | name :: names =>
    match files.text? (Path.join (Path.join base name) "summary.txt") with
    | none => records files base names
    | some text => do
      let r ← Record.ofText text
      let r := if r.algorithm.getD "" = "" then { r with algorithm := some name } else r
      return r :: (← records files base names)

/-- Whether a record is that of a perceptron, in letters of any case. -/
def isBaseline (r : Record) : Bool :=
  Text.lowerLatin (r.algorithm.getD "").toList = "perceptron".toList

/-- The accuracy of the first perceptron, if it is known. -/
def baseline? (rs : List Record) : Option Double :=
  (rs.find? isBaseline).bind Record.accuracy

/-- The accuracy that a row is compared with; a missing one counts as zero, and zero has no sign. -/
def comparedAccuracy (r : Record) : Double :=
  match r.accuracy with
  | some x => if x.same 0 then 0 else x
  | none => 0

def withDeltas (rs : List Record) : List Row :=
  rs.map fun r => ⟨r, (baseline? rs).map fun b => comparedAccuracy r - b⟩

/-- The rows of the comparison below a base directory. -/
def collect (files : FileTree) (base : String) : Except Fault (List Row) := do
  return withDeltas (← records files base (← files.list base))

def header : List (List Char) :=
  ["algorithm", "trace", "phi", "total", "skipped", "accuracy_pct", "mistakes", "updates", "labels",
    "weights", "eps", "wall_s", "delta_acc_pp_vs_perceptron"].map String.toList

/-- The fields of a row; what is not known is `none`. -/
def Row.fields (row : Row) : List (Option (List Char)) :=
  let r := row.record
  let text (x : Option String) := x.map String.toList
  let whole (x : Option Nat) := x.map Text.digits
  let float (x : Option Double) := x.map Number.text
  [text r.algorithm, text r.trace, float r.phi, whole r.total, whole r.skipped, float r.accuracy,
    whole r.mistakes, whole r.updates, whole r.labels, whole r.weights, float r.rate, float r.wall,
    float row.delta]

def printedLine (fields : List (List Char)) : List Char :=
  Text.joinWith ['\t'] fields ++ ['\n']

/-- The printed rows; what is not known is named so. -/
def printed (rows : List Row) : String :=
  String.ofList (printedLine header ++
    rows.flatMap fun row => printedLine (row.fields.map fun f => f.getD "None".toList))

/-- The table of rows; what is not known is empty. All of it can be encoded. -/
def table (rows : List Row) : String :=
  (Csv.fileText ((header :: rows.map fun row => row.fields.map fun f => f.getD []).map
    fun fields => fields.map CodePoints.ofChars)).1

/-- Compares the runs below a base directory. -/
def runBelow (base : String) (files : FileTree) : Execution Unit :=
  if !files.isDirectory base then
    { result := .ok (), files, printed := "No " ++ base ++ "/ directory found.\n" }
  else
    match collect files base with
    | .error e => .failed files e
    | .ok rows =>
      let path := Path.join base "compare.csv"
      match files.write path (table rows) with
      | .error e => { result := .error e, files, printed := printed rows }
      | .ok files =>
        { result := .ok (), files, printed := printed rows ++ "Wrote " ++ path ++ "\n" }

/-- Compares the runs below the base directory that is given. -/
def run (base : Given String) (files : FileTree) : Execution Unit :=
  match base.orFault .blankPlace with
  | .error e => .failed files e
  | .ok base => runBelow base files

end OnlineLearning.Compare
