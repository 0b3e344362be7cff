import OnlineLearning.Learning.Learner

/-! # Sessions

A session is a row of calls on one model: learners may take turns, and a flush hands out every
stored weight and starts the model anew. -/

namespace OnlineLearning

/-- What changes the model of a session. -/
inductive Call where
  | train (learner : Learner) (tokens label : Datum)
  | flush

/-- Whether a learner can be had: its confidence parameter is that of some `phi` or `eta`. -/
def Learner.Obtainable (quantile : Double → Double) : Learner → Prop
  | perceptron => True
  | confidenceWeighted phi => ∃ given eta, Confidence.resolve quantile given eta = .ok phi

/-- Whether the learner of a call, if there is one, can be had. -/
def Call.Obtainable (quantile : Double → Double) : Call → Prop
  | train learner _ _ => learner.Obtainable quantile
  | flush => True

namespace Registry

/-- Every stored weight, and the model without them. -/
def flush (r : Registry) : List Row × Registry := (r.rows, .empty)

def after (r : Registry) : Call → Registry
  | .train learner tokens label => (learner.train r tokens label).registry
  | .flush => r.flush.2

def afterAll (r : Registry) (calls : List Call) : Registry := calls.foldl after r

end Registry

end OnlineLearning
