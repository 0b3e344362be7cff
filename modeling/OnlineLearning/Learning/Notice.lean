import OnlineLearning.Fault

/-! # Notices

What a session reports besides its answers: steps that were not taken, and input that was passed
over. Each notice has a severity and the part of the library that reports it. -/

namespace OnlineLearning

inductive Notice.Severity where
  | debug
  | warning
deriving DecidableEq

/-- The notices of a session. -/
inductive Notice where
  /-- The step size has no solution, because the variance is corrupt. -/
  | degenerateStep (discriminant margin variance phi : Single)
  /-- A covariance became too small for its format. -/
  | covarianceUnderflow (old x step : Single)
  /-- An example was learned already. -/
  | noUpdate (label : Datum) (margin variance : Single)
  /-- A line was no well-formed data. -/
  | lineSkipped (number : Nat) (fault : Fault)
  /-- An example had a malformed token. -/
  | exampleSkipped (number : Nat) (fault : Fault)
  /-- A line was no object. -/
  | notAnObject (number : Nat)
  /-- A line lacked a list of tokens or a label. -/
  | incomplete (number : Nat)

namespace Notice

def severity : Notice → Severity
  | degenerateStep .. | lineSkipped .. | exampleSkipped .. => .warning
  | covarianceUnderflow .. | noUpdate .. | notAnObject _ | incomplete _ => .debug

inductive Reporter where
  | step
  | learner
  | replay
deriving DecidableEq

def reporter : Notice → Reporter
  | degenerateStep .. | covarianceUnderflow .. => .step
  | noUpdate .. => .learner
  | lineSkipped .. | exampleSkipped .. | notAnObject _ | incomplete _ => .replay

/-- The text of a four-byte number. -/
def single (x : Single) : String := String.ofList x.widen.text

def message : Notice → String
  | degenerateStep discriminant margin variance phi =>
    "degenerate CW step: discriminant=" ++ single discriminant ++ " (margin=" ++ single margin ++
      ", variance=" ++ single variance ++ ", phi=" ++ single phi ++ "); skipping update"
  | covarianceUnderflow old x step =>
    "covariance underflow (old=" ++ single old ++ ", x=" ++ single x ++ ", alpha=" ++
      single step ++ ")"
  | noUpdate label margin variance =>
    "no update for label " ++ String.ofList label.quoted ++ " (margin=" ++ single margin ++
      ", variance=" ++ single variance ++ ")"
  | lineSkipped number fault => s!"skipping line {number}: {fault.message}"
  | exampleSkipped number fault => s!"skipping example {number}: {fault.message}"
  | notAnObject number => s!"line {number}: not a JSON object"
  | incomplete number => s!"line {number}: missing features or label"

end Notice

end OnlineLearning
