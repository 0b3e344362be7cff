import OnlineLearning.Learning.Confidence
import OnlineLearning.Learning.Margin
import OnlineLearning.Learning.Update

/-! # Learners

Two ways to learn from labelled examples one at a time. A perceptron adds the example to its label
and subtracts it from the rival whenever the margin is not positive. A confidence-weighted learner
takes the step that its confidence parameter asks for. -/

namespace OnlineLearning

/-- A learner and its parameter. -/
inductive Learner where
  | perceptron
  | confidenceWeighted (phi : Double)
deriving DecidableEq

namespace Learner

/-- The learner of a name. Only the confidence-weighted one looks at its parameters. -/
def ofName (name : String) (phi eta : Datum) (quantile : Double → Double := Gaussian.quantile) :
    Except Fault Learner :=
  if name = "perceptron" then .ok perceptron
  else if name = "cw" then confidenceWeighted <$> Confidence.resolve quantile phi eta
  else .error (.unknownAlgorithm name)

def phi? : Learner → Option Double
  | perceptron => none
  | confidenceWeighted phi => some phi

/-- Adds a coordinate to a mean, or subtracts it; the covariance stays. -/
def shift (toward : Bool) (x : Single) (w : Weight) : Weight :=
  let mean := if toward then w.mean.narrow + x else w.mean.narrow - x
  ⟨mean.widen, w.covariance⟩

/-- One coordinate of a perceptron update. -/
def shiftBoth (label : Key) (rival : Option Key) (r : Registry) (c : Coordinate) : Registry :=
  let x := c.value.narrow
  let r := r.set label c.key (shift true x (r.weight label c.key))
  match rival with
  | none => r
  | some rival => r.set rival c.key (shift false x (r.weight rival c.key))

def shiftAll (r : Registry) (label : Key) (rival : Option Key) (cs : List Coordinate) : Registry :=
  let r := r.create label
  let r := match rival with
    | none => r
    | some rival => r.create rival
  cs.foldl (shiftBoth label rival) r

/-- Learns from an example: whether the model changed, the model, and notices. -/
def learn (learner : Learner) (r : Registry) (cs : List Coordinate) (label : Key) :
    Bool × Registry × List Notice :=
  match learner with
  | perceptron =>
    let margin := r.margin false cs label
    if Number.less 0 margin.value then (false, r, [])
    else (true, shiftAll r label margin.rival cs, [])
  | confidenceWeighted phi =>
    let margin := r.margin true cs label
    let (step, notices) := Step.size margin.value margin.variance phi.narrow
    if Number.less 0 step then
      let (r, more) := r.step step phi.narrow label margin.rival cs
      (true, r, notices ++ more)
    else (false, r, notices ++ [.noUpdate label.datum margin.value margin.variance])

/-- Checks an example in full: that there is a label, that the tokens are features, and that the
label and then the features can be keys. -/
def readExample (tokens label : Datum) : Except Fault (Key × List Coordinate) := do
  if label.isNull then throw .noLabel
  let fs ← Feature.ofTokens tokens
  let key ← label.toKey
  return (key, ← Feature.toCoordinates fs)

/-- Learns from the tokens of an example and its label. -/
def train (learner : Learner) (r : Registry) (tokens label : Datum) : Outcome Bool :=
  match readExample tokens label with
  | .error e => ⟨.error e, r, []⟩
  | .ok (key, cs) =>
    let (changed, r, notices) := learner.learn r cs key
    ⟨.ok changed, r, notices⟩

end Learner

/-- The label that a model predicts for the tokens of an example. -/
def Registry.predictTokens (r : Registry) (tokens : Datum) : Except Fault (Option Key) :=
  Feature.ofTokens tokens >>= r.predictFeatures

end OnlineLearning
