import OnlineLearning.Model.Registry

/-! # The margin of an example

An example is scored under every known label. Its margin under a label is the score of that label
less the score of the best other one, its rival; the variance of the margin adds up the variances of
both. Ties go to the label that became known first. -/

namespace OnlineLearning

/-- A label with the score and the variance of an example under it. -/
structure Contender where
  label : Key
  score : Single
  variance : Single

namespace Contender

/-- Whether a contender takes the lead. A null label does not hold it. -/
def beats (c leader : Contender) : Bool :=
  leader.label.datum.isNull || leader.score.less c.score

/-- The lead after one more contender. -/
def lead (leader? : Option Contender) (c : Contender) : Option Contender :=
  match leader? with
  | none => some c
  | some leader => if c.beats leader then some c else some leader

/-- The first of the contenders with the greatest score. -/
def leader? (cs : List Contender) : Option Contender := cs.foldl lead none

def label? (c : Contender) : Option Key :=
  if c.label.datum.isNull then none else some c.label

end Contender

/-- The outcome of scoring an example under its own label and all others. -/
structure Margin where
  value : Single
  variance : Single
  rival : Option Key

namespace Registry

/-- The score of an example in a store, with its variance if that is wanted. -/
def measure (withVariance : Bool) (s : Store) (cs : List Coordinate) : Single × Single :=
  if withVariance then s.scoreAndVariance cs else (s.score cs, 0)

/-- The known labels other than `label`, with their scores. -/
def others (r : Registry) (withVariance : Bool) (cs : List Coordinate) (label : Key) :
    List Contender :=
  (r.stores.entries.filter fun e => !e.1.datum.equals label.datum).map fun (other, store) =>
    let (score, variance) := measure withVariance store cs
    ⟨other, score, variance⟩

/-- The margin of an example under `label`. When no label is known yet, both sides of the margin are
unseen and the variance counts twice; when there is merely no rival, its score and variance are
zero. -/
def margin (r : Registry) (withVariance : Bool) (cs : List Coordinate) (label : Key) : Margin :=
  let (score, variance) := measure withVariance (r.storeOf label) cs
  if r.size = 0 then ⟨score, 2 * variance, none⟩
  else
    match Contender.leader? (r.others withVariance cs label) with
    | none => ⟨score - 0, variance + 0, none⟩
    | some rival => ⟨score - rival.score, variance + rival.variance, rival.label?⟩

/-- The margin of features under a label, if the label and then the features can be keys. -/
def marginOf (r : Registry) (withVariance : Bool) (fs : List Feature) (label : Datum) :
    Except Fault Margin := do
  let key ← label.toKey
  return r.margin withVariance (← Feature.toCoordinates fs) key

/-- The known label with the greatest score; the one known first wins ties. -/
def predict (r : Registry) (cs : List Coordinate) : Option Key :=
  (Contender.leader? (r.stores.entries.map fun (label, store) => ⟨label, store.score cs, 0⟩)).bind
    Contender.label?

/-- The predicted label. While no label is known the keys of the features do not matter. -/
def predictFeatures (r : Registry) (fs : List Feature) : Except Fault (Option Key) :=
  if r.size = 0 then .ok none else r.predict <$> Feature.toCoordinates fs

end Registry

end OnlineLearning
