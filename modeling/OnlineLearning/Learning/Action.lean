import OnlineLearning.Learning.Request
import OnlineLearning.Learning.Session

/-! # Actions

All that can happen to a model from its start on: requests, labels and weights that are put in by hand, and
flushes. What comes back one after another is the transcript of the model. -/

namespace OnlineLearning

/-- What can happen to a model. -/
inductive Action where
  | ask (request : Request)
  | create (label : Datum)
  | assign (label key : Datum) (w : Weight)
  | flush

inductive Reply where
  | answered (answer : Except Fault Answer) (notices : List Notice)
  | done (result : Except Fault Unit)
  | flushed (rows : List Row)

namespace Registry

/-- What an action brings back, and the model after it. -/
def act (r : Registry) : Action → Reply × Registry
  | .ask request => (.answered (r.serve request).result (r.serve request).notices, (r.serve request).registry)
  | .create label =>
    match label.toKey with
    | .error e => (.done (.error e), r)
    | .ok label => (.done (.ok ()), r.create label)
  | .assign label key w => (.done (r.assign label key w).result, (r.assign label key w).registry)
  | .flush => (.flushed r.flush.1, r.flush.2)

def actAll (r : Registry) (actions : List Action) : Registry := actions.foldl (fun r action => (r.act action).2) r

/-- What actions bring back one after another. -/
def transcript (r : Registry) : List Action → List Reply
  | [] => []
  | action :: actions => (r.act action).1 :: (r.act action).2.transcript actions

end Registry

end OnlineLearning
