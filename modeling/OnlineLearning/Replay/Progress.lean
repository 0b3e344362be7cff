import OnlineLearning.Learning.Learner
import OnlineLearning.Trace.Basic

/-! # Replaying a trace

A trace is replayed line by line: every example is first predicted and then learned, so the count of
correct predictions shows what the model knew before it saw the example. Examples that cannot be
read may be skipped, and leave nothing behind but their count; any other fault ends the replay. -/

namespace OnlineLearning.Replay

/-- The counts of a replay: examples learned from, right predictions among them, changes of the
model, and skipped lines. -/
structure Tally where
  total : Nat := 0
  correct : Nat := 0
  updates : Nat := 0
  skipped : Nat := 0
deriving DecidableEq

/-- Where a replay stands. -/
structure Progress where
  registry : Registry := .empty
  tally : Tally := {}
  notices : List Notice := []
  fault? : Option Fault := none

def Tally.learned (t : Tally) (correct changed : Bool) : Tally :=
  { t with
    total := t.total + 1
    correct := if correct then t.correct + 1 else t.correct
    updates := if changed then t.updates + 1 else t.updates }

def Tally.skip (t : Tally) : Tally := { t with skipped := t.skipped + 1 }

namespace Progress

/-- A malformed line: it is skipped if it may be. -/
def takeMalformed (skipInvalid : Bool) (p : Progress) (number : Nat) (e : Fault) : Progress :=
  if skipInvalid then
    { p with tally := p.tally.skip, notices := p.notices ++ [.lineSkipped number e] }
  else { p with fault? := some e }

/-- An example that cannot be learned: it is skipped if it may be and the fault is its own. -/
def takeFaulty (skipInvalid : Bool) (p : Progress) (e : Fault) : Progress :=
  if skipInvalid ∧ e.kind = .invalidArgument then
    let tally := p.tally.skip
    { p with tally, notices := p.notices ++ [.exampleSkipped (tally.total + tally.skipped) e] }
  else { p with fault? := some e }

/-- An example: the prediction is made, and then the example is learned. -/
def takeExample (learner : Learner) (skipInvalid : Bool) (p : Progress) (tokens : List Datum)
    (label : Datum) : Progress :=
  match p.registry.predictTokens (.list tokens) with
  | .error e => p.takeFaulty skipInvalid e
  | .ok predicted =>
    let outcome := learner.train p.registry (.list tokens) label
    let p := { p with registry := outcome.registry, notices := p.notices ++ outcome.notices }
    match outcome.result with
    | .error e => p.takeFaulty skipInvalid e
    | .ok changed =>
      let correct := predicted.any fun k => k.datum.equals label
      { p with tally := p.tally.learned correct changed }

def takeEntry (learner : Learner) (skipInvalid : Bool) (p : Progress) (number : Nat) :
    Trace.Entry → Progress
  | .blank => p
  | .dropped n => { p with notices := p.notices ++ [n] }
  | .malformed e => p.takeMalformed skipInvalid number e
  | .labelled tokens label => p.takeExample learner skipInvalid tokens label

/-- One line; after a fault nothing more is taken up. -/
def takeLine (learner : Learner) (skipInvalid : Bool) (p : Progress) (line : List Char × Nat) :
    Progress :=
  if p.fault?.isSome then p
  else
    match Trace.readLine line.2 line.1 with
    | .error e => { p with fault? := some e }
    | .ok entry => p.takeEntry learner skipInvalid line.2 entry

def ofTrace (learner : Learner) (skipInvalid : Bool) (text : String) : Progress :=
  (Trace.numberedLines text).foldl (takeLine learner skipInvalid) {}

end Progress

end OnlineLearning.Replay
