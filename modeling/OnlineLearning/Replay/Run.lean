import OnlineLearning.FileTree.Making
import OnlineLearning.Given
import OnlineLearning.Replay.Summary

/-! # A run on files

A run replays a trace file through a learner and writes the summary and the weights below the output
directory, in a directory named for the learner. The order of the steps shows in what is left when
one of them fails: first the directory is made, then the learner, and only then the trace is opened.
-/

namespace OnlineLearning

/-- What a program leaves behind: a result or a fault, the files after it, what it printed, and its
notices. -/
structure Execution (α : Type) where
  result : Except Fault α
  files : FileTree
  printed : String := ""
  notices : List Notice := []

/-- A program that stopped at a fault before it had anything to say. -/
def Execution.failed {α : Type} (files : FileTree) (e : Fault) : Execution α :=
  { result := .error e, files }

namespace Replay

structure Settings where
  trace : Given String
  algorithm : Given String := .value "cw"
  phi? : Option (Given Double) := none
  eta? : Option (Given Double) := none
  outDirectory : Given String := .value "results"
  skipInvalid : Bool := false
  logLevel : Given String := .value "WARNING"
deriving DecidableEq

/-- A parameter as a datum; a blank is a list without items. -/
def parameter : Option (Given Double) → Datum
  | some (.value x) => .float x 0
  | some .blank => .list []
  | none => .null

/-- The directory that runs of a learner write to. -/
def resultDirectory (outDirectory algorithm : String) : String :=
  let path := Path.join outDirectory algorithm
  Path.ofNames (Path.root path) (Path.names path)

/-- A finished replay: where its results belong, what it was of, and what came of it. -/
structure Finished where
  directory : String
  algorithm : String
  trace : String
  learner : Learner
  progress : Progress

namespace Finished

def summary (f : Finished) (wall : Double) : Summary :=
  let r := f.progress.registry
  ⟨f.algorithm, f.trace, f.learner.phi?, f.progress.tally, r.size, r.weightCount, wall⟩

/-- Writes the weights and the summary of a finished replay. If the table of weights breaks off, its start is
left in the file. -/
def write (f : Finished) (wall : Double) (files : FileTree) : Execution Summary :=
  let summary := f.summary wall
  let table := modelTable f.progress.registry.rows
  match files.write (Path.join f.directory "model.csv") table.1 with
  | .error e => .failed files e
  | .ok files =>
    match table.2 with
    | some e => .failed files e
    | none =>
      match files.write (Path.join f.directory "summary.txt") summary.text with
      | .error e => .failed files e
      | .ok files => { result := .ok summary, files, printed := summary.text }

end Finished

namespace Settings

/-- The directory that a run writes to, and the name of its learner. -/
def destination (s : Settings) : Except Fault (String × String) := do
  let outDirectory ← s.outDirectory.orFault .blankPath
  let algorithm ← s.algorithm.orFault .blankName
  return (resultDirectory outDirectory algorithm, algorithm)

/-- The learner of a run, and the path and the text of its trace. -/
def load (s : Settings) (algorithm : String) (files : FileTree)
    (quantile : Double → Double := Gaussian.quantile) : Except Fault (Learner × String × String) := do
  let learner ← Learner.ofName algorithm (parameter s.phi?) (parameter s.eta?) quantile
  let trace ← s.trace.orFault .blankPath
  return (learner, trace, ← files.read trace)

/-- The first half of a run: the directory is made, and the trace is replayed. -/
def replay (s : Settings) (files : FileTree) (quantile : Double → Double := Gaussian.quantile) :
    Execution Finished :=
  match s.destination with
  | .error e => .failed files e
  | .ok (directory, algorithm) =>
    match files.makeFromEnd directory with
    | (files, some e) => .failed files e
    | (files, none) =>
      match s.load algorithm files quantile with
      | .error e => .failed files e
      | .ok (learner, trace, text) =>
        let p := Progress.ofTrace learner s.skipInvalid text
        match p.fault? with
        | some e => { result := .error e, files, notices := p.notices }
        | none =>
          let finished := ⟨directory, algorithm, trace, learner, p⟩
          { result := .ok finished, files, notices := p.notices }

end Settings

/-- The second half of a run: the results of the first are written, with the time that it took. -/
def conclude (wall : Double) (x : Execution Finished) : Execution Summary :=
  match x.result with
  | .error e => { result := .error e, files := x.files, notices := x.notices }
  | .ok finished => { finished.write wall x.files with notices := x.notices }

/-- A run, with the times at its start and its end. -/
def run (s : Settings) (start finish : Double) (files : FileTree)
    (quantile : Double → Double := Gaussian.quantile) : Execution Summary :=
  conclude (finish - start) (s.replay files quantile)

end Replay

end OnlineLearning
