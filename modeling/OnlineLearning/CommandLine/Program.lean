import OnlineLearning.CommandLine.Arguments
import OnlineLearning.CommandLine.Help
import OnlineLearning.Compare.Table
import OnlineLearning.Replay.Run
import OnlineLearning.Synthetic.Trace

/-! # The programs

There are three programs: one replays a trace, one writes a synthetic trace, and one compares the
summaries of runs. Each has switches of its own, from which its settings are read. -/

namespace OnlineLearning.CommandLine

/-- What a switch gives that is set last as `read?` says, if it is set. -/
def given? {α : Type} (read? : Setting → Option α) (settings : List (Switch × Setting))
    (s : Switch) : Option (Given α) :=
  match last? settings s with
  | some .blank => some .blank
  | some x => (read? x).map .value
  | none => none

def text? : List (Switch × Setting) → Switch → Option (Given String) :=
  given? fun
    | .text x => some x
    | _ => none

def float? : List (Switch × Setting) → Switch → Option (Given Double) :=
  given? fun
    | .float x => some x
    | _ => none

def int? : List (Switch × Setting) → Switch → Option (Given Int) :=
  given? fun
    | .int n => some n
    | _ => none

structure ReplaySwitches where
  trace : Switch :=
    { names := ["--trace"], takes := .text, required := true, about := "Path to JSONL trace file" }
  algorithm : Switch := { names := ["--algorithm"], takes := .choice ["perceptron", "cw"] }
  phi : Switch :=
    { names := ["--phi", "--confidence"], takes := .float,
      about := "Confidence parameter phi [default 1.0]; overrides --eta" }
  eta : Switch :=
    { names := ["--eta", "--hyper-c"], takes := .float,
      about := "Confidence hyperparameter eta in range (0.5, 1]" }
  outDirectory : Switch := { names := ["--out-dir"], takes := .text }
  skipInvalid : Switch :=
    { names := ["--skip-invalid"], takes := .nothing,
      about := "Skip malformed JSON lines and examples with malformed features instead of " ++
        "aborting" }
  logLevel : Switch := { names := ["--log-level"], takes := .text }

def ReplaySwitches.all (s : ReplaySwitches) : List Switch :=
  [s.trace, s.algorithm, s.phi, s.eta, s.outDirectory, s.skipInvalid, s.logLevel]

def replayManual : Manual where
  purpose := "Replay a labeled JSONL trace through an online multiclass classifier"
  switches := ReplaySwitches.all {}

def replaySettings (arguments : List String) : Except Stop Replay.Settings := do
  let switches : ReplaySwitches := {}
  let given ← parse replayManual.switches arguments
  let default : Replay.Settings := { trace := .blank }
  return {
    trace := (text? given switches.trace).getD default.trace
    algorithm := (text? given switches.algorithm).getD default.algorithm
    phi? := float? given switches.phi
    eta? := float? given switches.eta
    outDirectory := (text? given switches.outDirectory).getD default.outDirectory
    skipInvalid := (last? given switches.skipInvalid).isSome
    logLevel := (text? given switches.logLevel).getD default.logLevel }

structure SyntheticSwitches where
  count : Switch := { names := ["--n"], takes := .int }
  classes : Switch := { names := ["--classes"], takes := .int }
  noise : Switch := { names := ["--noise-frac"], takes := .float }
  seed : Switch := { names := ["--seed"], takes := .int }
  out : Switch := { names := ["--out"], takes := .text }

def SyntheticSwitches.all (s : SyntheticSwitches) : List Switch :=
  [s.count, s.classes, s.noise, s.seed, s.out]

def syntheticManual : Manual where
  purpose := "Generate a synthetic labeled multiclass trace"
  switches := SyntheticSwitches.all {}

def syntheticSettings (arguments : List String) : Except Stop Synthetic.Settings := do
  let switches : SyntheticSwitches := {}
  let given ← parse syntheticManual.switches arguments
  let default : Synthetic.Settings := {}
  return {
    count := (int? given switches.count).getD default.count
    classes := (int? given switches.classes).getD default.classes
    noise := (float? given switches.noise).getD default.noise
    seed := (int? given switches.seed).getD default.seed
    out := (text? given switches.out).getD default.out }

def baseSwitch : Switch := { names := ["--base"], takes := .text }

def compareManual : Manual where
  purpose := "Collect results/<algorithm>/summary.txt into compare.csv"
  switches := [baseSwitch]

def compareBase (arguments : List String) : Except Stop (Given String) := do
  let given ← parse compareManual.switches arguments
  return (text? given baseSwitch).getD (.value "results")

end OnlineLearning.CommandLine
