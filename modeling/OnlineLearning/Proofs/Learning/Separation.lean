import OnlineLearning.Proofs.Binary.Widening
import OnlineLearning.Proofs.Learning.Rival

/-! # An update comes apart by labels and keys

An update along an example reads and writes the stores of a label and its rival in turn, coordinate by
coordinate, whatever it does to a weight (`rewriteBoth`). Read at one label and one key, the result is
what the values of the example at that key do to that one weight, in their order (`weight_step` for a step,
`weight_shiftAll` for a perceptron). Nothing else moves. -/

namespace OnlineLearning

/-- The values of an example at a key, in order. -/
def Coordinate.valuesAt (cs : List Coordinate) (k : Key) : List Double :=
  (cs.filter fun c => c.key.same k).map Coordinate.value

/-- A weight after steps along values, one after another. -/
def Step.applyAll (toward : Bool) (step phi : Single) (xs : List Double) (w : Weight) : Weight :=
  xs.foldl (fun w x => (apply toward x.narrow step phi w).1) w

namespace Registry
variable {size phi : Single} {label : Key} {rival : Option Key}

/-- Which way a label is moved by a step: the label toward the example, its rival away from it. -/
def direction? (label : Key) (rival : Option Key) (l : Key) : Option Bool :=
  if label.same l then some true else if rival.any (·.same l) then some false else none

variable {f : Bool → Single → Weight → Weight}

/-- One coordinate of an update: the weight of the label is rewritten, and then that of its rival. -/
def rewriteBoth (f : Bool → Single → Weight → Weight) (label : Key) (rival : Option Key) (r : Registry)
    (c : Coordinate) : Registry :=
  let r := r.set label c.key (f true c.value.narrow (r.weight label c.key))
  match rival with
  | none => r
  | some rival => r.set rival c.key (f false c.value.narrow (r.weight rival c.key))

theorem weight_rewrite (r : Registry) (label : Key) (g : Weight → Weight) (k l k' : Key) :
    (r.set label k (g (r.weight label k))).weight l k' =
      if label.same l && k.same k' then g (r.weight l k') else r.weight l k' := by
  rw [weight_set]
  split
  · rename_i h
    rw [Bool.and_eq_true] at h
    rw [weight_congr r h.1 h.2]
  · rfl

/-- One coordinate moves a weight if it has its key. -/
theorem weight_rewriteBoth (hrival : ∀ l, rival = some l → label.same l = false) (c : Coordinate)
    (r : Registry) (l k : Key) :
    (rewriteBoth f label rival r c).weight l k =
      match direction? label rival l with
      | none => r.weight l k
      | some toward => if c.key.same k then f toward c.value.narrow (r.weight l k) else r.weight l k := by
  unfold rewriteBoth direction?
  cases rival with
  | none =>
    rw [weight_rewrite]
    by_cases hl : label.same l <;> simp [hl]
  | some other =>
    have hne := hrival other rfl
    rw [weight_rewrite, weight_rewrite]
    by_cases hl : label.same l
    · have ho : other.same l = false := by
        rw [Key.same_comm, ← Key.same_congr_left hl, hne]
      simp [hl, ho]
    · by_cases ho : other.same l <;> simp [hl, ho]

theorem weight_foldl_rewriteBoth (hrival : ∀ l, rival = some l → label.same l = false)
    (cs : List Coordinate) (r : Registry) (l k : Key) :
    (cs.foldl (rewriteBoth f label rival) r).weight l k =
      match direction? label rival l with
      | none => r.weight l k
      | some toward => (Coordinate.valuesAt cs k).foldl (fun w x => f toward x.narrow w) (r.weight l k) := by
  induction cs generalizing r with
  | nil => cases direction? label rival l <;> rfl
  | cons c cs ih =>
    rw [List.foldl_cons, ih, weight_rewriteBoth hrival]
    cases direction? label rival l with
    | none => rfl
    | some toward =>
      simp only [Coordinate.valuesAt, List.filter_cons]
      by_cases hk : c.key.same k
      · simp [hk]
      · simp [hk]

theorem foldl_stepBoth_fst (cs : List Coordinate) (state : Registry × List Notice) :
    (cs.foldl (stepBoth size phi label rival) state).1 =
      cs.foldl (rewriteBoth (fun toward x w => (Step.apply toward x size phi w).1) label rival) state.1 := by
  induction cs generalizing state with
  | nil => rfl
  | cons c cs ih =>
    rw [List.foldl_cons, List.foldl_cons, ih]
    cases rival <;> rfl

theorem weight_step (r : Registry) (hrival : ∀ l, rival = some l → label.same l = false)
    (cs : List Coordinate) (l k : Key) :
    (r.step size phi label rival cs).1.weight l k =
      match direction? label rival l with
      | none => r.weight l k
      | some toward => Step.applyAll toward size phi (Coordinate.valuesAt cs k) (r.weight l k) := by
  unfold step
  rw [foldl_stepBoth_fst, weight_foldl_rewriteBoth hrival]
  cases rival <;> simp only [weight_create, Step.applyAll]

theorem weight_shiftAll (r : Registry) (hrival : ∀ l, rival = some l → label.same l = false)
    (cs : List Coordinate) (l k : Key) :
    (Learner.shiftAll r label rival cs).weight l k =
      match direction? label rival l with
      | none => r.weight l k
      | some toward =>
        (Coordinate.valuesAt cs k).foldl (fun w x => Learner.shift toward x.narrow w) (r.weight l k) := by
  have hshift : Learner.shiftBoth label rival = rewriteBoth Learner.shift label rival := rfl
  unfold Learner.shiftAll
  rw [hshift, weight_foldl_rewriteBoth hrival]
  cases rival <;> simp only [weight_create]

end Registry

/-! ### Features that are read again -/

namespace Feature
variable {fs : List Feature} {cs : List Coordinate}

/-- A feature as a token. -/
def pair (f : Feature) : Datum := .tuple [f.key, .float f.value 0]

theorem coordinates_cons_of_toCoordinates {f : Feature} (h : toCoordinates (f :: fs) = .ok cs) :
    ∃ key cs', f.key.toKey = .ok key ∧ toCoordinates fs = .ok cs' ∧ cs = ⟨key, f.value⟩ :: cs' := by
  unfold toCoordinates at h ⊢
  cases hk : f.key.toKey with
  | error e =>
    rw [coordinates_cons_of_error fs hk] at h
    cases h
  | ok key =>
    rw [coordinates_cons_of_ok fs hk] at h
    rcases hc : coordinates fs with ⟨cs', _ | e⟩
    · rw [hc] at h
      exact ⟨key, cs', rfl, rfl, (Except.ok.inj h).symm⟩
    · rw [hc] at h
      cases h

/-- Features with usable keys are read again from their tokens. -/
theorem ofTokenList_map_pair (h : toCoordinates fs = .ok cs) : ofTokenList (fs.map pair) = .ok fs := by
  induction fs generalizing cs with
  | nil => rfl
  | cons f fs ih =>
    obtain ⟨key, cs', hkey, hcs', -⟩ := coordinates_cons_of_toCoordinates h
    have hmut : f.key.kind.isMutable = false := by
      rw [← Datum.toKey_eq_ok_iff.mp hkey]
      have := key.immutable
      cases hd : key.datum <;> rw [hd] at this <;> simp [Datum.mutablePart?, Datum.kind, Datum.Kind.isMutable] at this ⊢
    have hf : ofToken f.pair = .ok (some f) := by
      unfold ofToken pair
      simp only [hmut, Bool.false_eq_true, if_false]
      rfl
    rw [List.map_cons, ofTokenList, hf, ih hcs']
    rfl

end Feature

end OnlineLearning
