import OnlineLearning.Replay.Progress
import OnlineLearning.Csv

/-! # What a replay writes

A replay leaves two texts: a summary with one line for each group of figures, and a table of all
stored weights. The table ends before the first label or key that a file cannot hold. -/

namespace OnlineLearning

namespace Number

/-- The number nearest to a quotient of whole numbers. -/
def ofRatio {F : Format} (num den : Nat) : Number F := .round false (num * F.one) den

/-- A fraction in percent, with two decimal places. -/
def percent {F : Format} (x : Number F) : List Char := (x * 100).fixed 2 ++ ['%']

end Number

namespace Replay

/-- The figures of a replay. -/
structure Summary where
  algorithm : String
  trace : String
  phi? : Option Double
  tally : Tally
  labels : Nat
  weights : Nat
  wall : Double
deriving DecidableEq

namespace Summary

/-- The part of the predictions that was right. -/
def accuracy (s : Summary) : Double :=
  if s.tally.total = 0 then 0 else .ofRatio s.tally.correct s.tally.total

/-- Examples for each second, where time has passed. -/
def rate (s : Summary) : Double :=
  if Number.less 0 s.wall then Number.ofInt s.tally.total / s.wall else 0

def lines (s : Summary) : List (List Char) :=
  let n (k : Nat) := Text.digits k
  [ "Algorithm: ".toList ++ s.algorithm.toList,
    "Trace: ".toList ++ s.trace.toList,
    "Phi: ".toList ++ (match s.phi? with
      | some phi => phi.text
      | none => ['-']),
    "Total Examples: ".toList ++ n s.tally.total,
    "Skipped: ".toList ++ n s.tally.skipped,
    "Accuracy: ".toList ++ s.accuracy.percent,
    "Mistakes: ".toList ++ n (s.tally.total - s.tally.correct) ++ " | Updates: ".toList ++
      n s.tally.updates,
    "Labels: ".toList ++ n s.labels ++ " | Weights: ".toList ++ n s.weights,
    "Examples/s: ".toList ++ s.rate.fixed 2 ++ " | Wall Time: ".toList ++ s.wall.fixed 2 ++
      " s".toList ]

def text (s : Summary) : String :=
  String.ofList (s.lines.flatMap fun line => line ++ ['\n'])

end Summary

def modelHeader : List CodePoints := ["label", "feature", "weight", "covariance"]

def modelRecord (row : Row) : List CodePoints :=
  [cell row.label, cell row.key, .ofChars row.weight.mean.text, .ofChars row.weight.covariance.text]
where
  /-- The field of a label or a key; null is an empty one. -/
  cell (d : Datum) : CodePoints := if d.isNull then [] else d.display

/-- The table of all weights, as far as it can be written, and the fault that ends it. -/
def modelTable (rows : List Row) : String × Option Fault :=
  Csv.fileText (modelHeader :: rows.map modelRecord)

end Replay

end OnlineLearning
