import OnlineLearning.Json.Writer
import OnlineLearning.Replay.Run
import OnlineLearning.Synthetic.Examples

/-! # Synthetic traces

A synthetic trace is a file with an example on each line, in the form that a replay reads. It is
written as the examples come: if one fails, those before it are in the file. -/

namespace OnlineLearning.Synthetic

/-- An example as a line of a trace. -/
def Example.line (e : Example) : List Char :=
  Json.object
    [("features", Json.array (e.tokens.map Json.text)), ("label", Json.text e.label)] ++ ['\n']

def traceText (es : List Example) : String := String.ofList (es.flatMap Example.line)

structure Settings where
  count : Given Int := .value 2000
  classes : Given Int := .value 4
  noise : Given Double := .value standardNoise
  seed : Given Int := .value 0
  out : Given String := .value "data/synthetic_2k.jsonl"
deriving DecidableEq

namespace Settings

/-- The examples of a trace. A blank seed is as good as zero; the seed is looked at first. -/
def examples (s : Settings) (source : Random.Source := Random.Generator.source) : List Example × Option Fault :=
  let seed := s.seed.getD 0
  match s.classes, s.count with
  | .value classes, .value count => Synthetic.examples { classes, noise := s.noise } count seed source
  | _, _ =>
    match source.start seed with
    | .error e => ([], some e)
    | .ok _ => ([], some .blankCount)

/-- Makes the directory of the file at `out`, and writes the examples to it. -/
def writeTo (s : Settings) (out : String) (files : FileTree) (source : Random.Source := Random.Generator.source) :
    Execution Unit :=
  let directory := Path.directory out
  match files.makeFromStart (if directory.isEmpty then "." else directory) with
  | (files, some e) => .failed files e
  | (files, none) =>
    let (es, fault?) := s.examples source
    match files.write out (traceText es) with
    | .error e => .failed files e
    | .ok files =>
      match fault? with
      | some e => .failed files e
      | none => { result := .ok (), files, printed := "Wrote " ++ out ++ "\n" }

def run (s : Settings) (files : FileTree) (source : Random.Source := Random.Generator.source) : Execution Unit :=
  match s.out.orFault .blankPath with
  | .error e => .failed files e
  | .ok out => s.writeTo out files source

end Settings

end OnlineLearning.Synthetic
