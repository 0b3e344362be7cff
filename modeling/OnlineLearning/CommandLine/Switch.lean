import OnlineLearning.Decimal.Reading
import OnlineLearning.Fault

/-! # The switches of a program

A switch has one or more names and takes a value, or stands alone. Values are read as the switch
says; a value that cannot be read is a usage fault that names the switch. -/

namespace OnlineLearning.CommandLine

inductive Takes where
  | text
  | choice (among : List String)
  | float
  | int
  | nothing
  | help
deriving DecidableEq

/-- What a switch sets. A blank stands for a value that was left out. -/
inductive Setting where
  | text (s : String)
  | float (x : Double)
  | int (n : Int)
  | on
  | blank
deriving DecidableEq

/-- A switch of a program, and what its help says about it. -/
structure Switch where
  names : List String
  takes : Takes
  required : Bool := false
  about : String := ""
deriving DecidableEq

namespace Switch

def help : Switch where
  names := ["-h", "--help"]
  takes := .help
  about := "show this help message and exit"

/-- The names of a switch between strokes. -/
def title (s : Switch) : String := "/".intercalate s.names

/-- Whether a switch stands alone. -/
def isBare (s : Switch) : Bool := s.takes = .nothing || s.takes = .help

end Switch

/-- What can be wrong with the arguments of a program. -/
inductive UsageFault where
  | ambiguous (argument : String) (matching : List String)
  | missingValue (switch : Switch)
  | unwantedValue (switch : Switch) (value : String)
  | badFloat (switch : Switch) (value : String)
  | badInt (switch : Switch) (value : String)
  | badChoice (switch : Switch) (value : String) (among : List String)
  | missingSwitches (switches : List Switch)
  | unrecognized (arguments : List String)
deriving DecidableEq

def quote (s : String) : String := String.ofList (Text.quoted s)

def UsageFault.message : UsageFault → String
  | .ambiguous argument matching =>
    s!"ambiguous option: {argument} could match " ++ ", ".intercalate matching
  | .missingValue s => s!"argument {s.title}: expected one argument"
  | .unwantedValue s value => s!"argument {s.title}: ignored explicit argument {quote value}"
  | .badFloat s value => s!"argument {s.title}: invalid float value: {quote value}"
  | .badInt s value => s!"argument {s.title}: invalid int value: {quote value}"
  | .badChoice s value among =>
    s!"argument {s.title}: invalid choice: {quote value} (choose from " ++
      ", ".intercalate (among.map quote) ++ ")"
  | .missingSwitches ss =>
    "the following arguments are required: " ++ ", ".intercalate (ss.map Switch.title)
  | .unrecognized arguments => "unrecognized arguments: " ++ " ".intercalate arguments

/-- The integer that a value writes, unless it has too many digits. -/
def readInt? (value : String) : Option Int := do
  let (_, ds) := Text.takeSign (← Text.numeral? value.toList)
  if ds.length > Fault.digitLimit then none else Text.readInt? value.toList

/-- The argument after which nothing is a switch. As the value of a switch it leaves a blank. -/
def endMark : String := "--"

/-- What a value sets. -/
def Switch.read (s : Switch) (value : String) : Except UsageFault Setting :=
  if value = endMark ∧ !s.isBare then .ok .blank
  else
    match s.takes with
    | .text => .ok (.text value)
    | .choice among =>
      if value ∈ among then .ok (.text value) else .error (.badChoice s value among)
    | .float =>
      match Number.read? value.toList with
      | some x => .ok (.float x)
      | none => .error (.badFloat s value)
    | .int =>
      match readInt? value with
      | some n => .ok (.int n)
      | none => .error (.badInt s value)
    | .nothing | .help => .error (.unwantedValue s value)

end OnlineLearning.CommandLine
