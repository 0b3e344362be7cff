import OnlineLearning.Learning.Learner

/-! # Requests

What can be asked of a model through its labels and weights: a prediction, a margin, an update, a call
of a learner, or a weight. Some requests change the model; whatever they do, each gets an answer or a
fault. -/

namespace OnlineLearning

/-- What can be asked of a model. -/
inductive Request where
  | predict (tokens : Datum)
  | evaluate (withVariance : Bool) (tokens label : Datum)
  | update (tokens : Datum) (step phi : Double) (label rival : Datum)
  | train (learner : Learner) (tokens label : Datum)
  | weight (label key : Datum)

inductive Answer where
  | predicted (label : Option Key)
  | evaluated (margin : Margin)
  | updated
  | trained (changed : Bool)
  | weight (w : Weight)

/-- A result that leaves the model as it is. -/
def Outcome.unchanged {α : Type} (r : Registry) (result : Except Fault α) : Outcome α := ⟨result, r, []⟩

/-- The same outcome with another result. -/
def Outcome.map {α β : Type} (f : α → β) (o : Outcome α) : Outcome β := ⟨o.result.map f, o.registry, o.notices⟩

namespace Registry

def serve (r : Registry) : Request → Outcome Answer
  | .predict tokens => .unchanged r (.predicted <$> r.predictTokens tokens)
  | .evaluate withVariance tokens label =>
    .unchanged r do return .evaluated (← r.marginOf withVariance (← Feature.ofTokens tokens) label)
  | .update tokens step phi label rival => (r.update tokens step phi label rival).map fun _ => .updated
  | .train learner tokens label => (learner.train r tokens label).map .trained
  | .weight label key => .unchanged r (.weight <$> r.weightOf label key)

def served (r : Registry) (requests : List Request) : Registry :=
  requests.foldl (fun r request => (r.serve request).registry) r

/-- What requests are answered with one after another, and the notices on the way. -/
def replies (r : Registry) : List Request → List (Except Fault Answer × List Notice)
  | [] => []
  | request :: requests =>
    let o := r.serve request
    (o.result, o.notices) :: replies o.registry requests

end Registry

end OnlineLearning
