import OnlineLearning.Learning.Step

/-! # Updates on request

An update names its label, its rival and its step size. Labels and tokens are checked before
anything is written, but whether labels and keys can be keys only shows where they are first used:
what was written up to there stays. -/

namespace OnlineLearning

/-- What an operation leaves behind: a result or a fault, the model after it, and notices. -/
structure Outcome (α : Type) where
  result : Except Fault α
  registry : Registry
  notices : List Notice := []

namespace Registry

/-- Sets a weight. The label becomes known even if the key turns out to be none. -/
def assign (r : Registry) (label key : Datum) (w : Weight) : Outcome Unit :=
  match label.toKey with
  | .error e => ⟨.error e, r, []⟩
  | .ok label =>
    match key.toKey with
    | .error e => ⟨.error e, r.create label, []⟩
    | .ok key => ⟨.ok (), r.set label key w, []⟩

/-- The registry after a step along features, up to the first that has no usable key. -/
def stepFeatures (r : Registry) (step phi : Single) (label : Key) (rival : Option Key)
    (fs : List Feature) : Outcome Unit :=
  let (cs, fault?) := Feature.coordinates fs
  let (r, notices) := r.step step phi label rival cs
  ⟨match fault? with
    | none => .ok ()
    | some e => .error e, r, notices⟩

/-- The update of a label, and of the rival that was mistaken for it, by the tokens of an example.
-/
def update (r : Registry) (tokens : Datum) (step phi : Double) (label rival : Datum) :
    Outcome Unit :=
  if label.isNull then ⟨.error .noActualLabel, r, []⟩
  else if label.equals rival then ⟨.error (.sameLabels label), r, []⟩
  else
    match Feature.ofTokens tokens with
    | .error e => ⟨.error e, r, []⟩
    | .ok fs =>
      match label.toKey with
      | .error e => ⟨.error e, r, []⟩
      | .ok labelKey =>
        if rival.isNull then r.stepFeatures step.narrow phi.narrow labelKey none fs
        else
          match rival.toKey with
          | .error e => ⟨.error e, r.create labelKey, []⟩
          | .ok rivalKey => r.stepFeatures step.narrow phi.narrow labelKey (some rivalKey) fs

end Registry

end OnlineLearning
