import OnlineLearning.Learning.Session
import OnlineLearning.Proofs.Learning.FiniteMeans

/-!
# Infinite steps

The numerator of a step size overflows long before the margin does, and the checks on it only look for a
divisor of zero and for a discriminant without a root. An infinite step leaves no finite mean where it is
taken, and no later one mends it. So over the calls of a session with the standard confidence parameter
the stored means are finite as long as no step is infinite, and no longer (`means_finite_iff`); there are
sessions with small values that take an infinite step.
-/

namespace OnlineLearning

/-- A call of a learner with the standard confidence parameter. -/
def Call.standard (e : Datum × Datum) : Call := .train (.confidenceWeighted Confidence.standard) e.1 e.2

namespace Step

theorem isFinite_apply_infinite (toward : Bool) (x phi : Single) (w : Weight) :
    (apply toward x (.infinite false) phi w).1.mean.isFinite = false := by
  have hmove : ∀ m : Single, ¬ (if toward then m + .infinite false * w.covariance.narrow * x
      else m - .infinite false * w.covariance.narrow * x).isFinite = true := by
    intro m h
    have hproduct : (.infinite false * w.covariance.narrow * x : Single).isFinite = true := by
      cases toward with
      | true => exact (Number.isFinite_of_add h).2
      | false => exact (Number.isFinite_of_sub h).2
    have hstep := (Number.isFinite_of_mul (Number.isFinite_of_mul hproduct).1).1
    cases hstep
  refine Bool.eq_false_iff.mpr fun h => ?_
  unfold apply at h
  dsimp only at h
  split at h
  · rw [Number.isFinite_widen] at h
    exact hmove _ h
  · rw [Number.isFinite_widen] at h
    exact hmove _ h

end Step

namespace Registry

/-- The mean that is stored at a key of a label is not finite. -/
def Spoiled (r : Registry) (label key : Key) : Prop := ∃ w, r.stored? label key = some w ∧ w.mean.isFinite = false

section
variable {phi : Single} {label l k : Key} {rival : Option Key} {c : Coordinate} {state : Registry × List Notice}

theorem Spoiled.stepAt (h : state.1.Spoiled l k) (toward : Bool) (l' : Key) (c : Coordinate) :
    (Registry.stepAt (.infinite false) phi toward l' c state).1.Spoiled l k := by
  obtain ⟨w, hw, hmean⟩ := h
  unfold Registry.stepAt Spoiled
  dsimp only
  rw [stored?_set]
  split
  · exact ⟨_, rfl, Step.isFinite_apply_infinite ..⟩
  · exact ⟨w, hw, hmean⟩

theorem spoiled_stepAt (phi : Single) (toward : Bool) (label : Key) (c : Coordinate)
    (state : Registry × List Notice) :
    (stepAt (.infinite false) phi toward label c state).1.Spoiled label c.key := by
  refine ⟨_, ?_, Step.isFinite_apply_infinite toward c.value.narrow phi (state.1.weight label c.key)⟩
  unfold stepAt
  dsimp only
  rw [stored?_set, Key.same_self, Key.same_self]
  rfl

theorem Spoiled.stepBoth (h : state.1.Spoiled l k) (c : Coordinate) :
    (Registry.stepBoth (.infinite false) phi label rival state c).1.Spoiled l k := by
  unfold Registry.stepBoth
  cases rival with
  | none => exact h.stepAt true label c
  | some rival => exact (h.stepAt true label c).stepAt false rival c

theorem spoiled_stepBoth (state : Registry × List Notice) :
    (stepBoth (.infinite false) phi label rival state c).1.Spoiled label c.key := by
  have hlabel := spoiled_stepAt phi true label c state
  unfold stepBoth
  cases rival with
  | none => exact hlabel
  | some rival => exact hlabel.stepAt false rival c

/-- An infinite step spoils the mean of each coordinate under the label. -/
theorem spoiled_step (r : Registry) (phi : Single) (label : Key) (rival : Option Key) {cs : List Coordinate}
    (hc : c ∈ cs) :
    (r.step (.infinite false) phi label rival cs).1.Spoiled label c.key := by
  obtain ⟨before, after, rfl⟩ := List.append_of_mem hc
  unfold step
  rw [List.foldl_append, List.foldl_cons]
  exact List.foldlRecOn (motive := fun state : Registry × List Notice => state.1.Spoiled label c.key) after _
    (spoiled_stepBoth _) fun state hstate c' _ => hstate.stepBoth c'

end

theorem margin_variance_nil (r : Registry) (label : Key) : (r.margin true [] label).variance = 0 := by
  have htwice : (2 * 0 : Single) = 0 := by decide
  have hsum : (0 + 0 : Single) = 0 := by decide
  rcases r.margin_cases true [] label with
    ⟨-, hmargin⟩ | ⟨-, -, hmargin⟩ | ⟨other, -, -, -, hmargin⟩ <;> rw [hmargin]
  · exact htwice
  · exact hsum
  · exact hsum

end Registry

namespace Learner
variable {r : Registry} {tokens label : Datum} {key : Key} {cs : List Coordinate}

theorem stepSize_nil (r : Registry) (label : Key) : stepSize r Confidence.standard [] label = 0 := by
  have hdivisor : (4 * 1 * 0 : Single).same 0 = true := by decide
  unfold stepSize Step.size
  rw [Registry.margin_variance_nil, narrow_standard]
  dsimp only
  rw [if_pos hdivisor]

theorem exists_row_of_infinite (hread : readExample tokens label = .ok (key, cs))
    (hstep : stepSize r Confidence.standard cs key = .infinite false) :
    ∃ row ∈ ((confidenceWeighted Confidence.standard).train r tokens label).registry.rows,
      row.weight.mean.isFinite = false := by
  cases cs with
  | nil =>
    rw [stepSize_nil] at hstep
    exact absurd hstep (by decide)
  | cons c cs =>
    have hpos : Number.less 0 (.infinite false : Single) = true := by decide
    have hfirst : c ∈ c :: cs := List.mem_cons_self ..
    obtain ⟨w, hstored, hmean⟩ :=
      r.spoiled_step Confidence.standard.narrow key (r.margin true (c :: cs) key).rival hfirst
    unfold train
    rw [hread]
    unfold stepSize at hstep
    simp only [learn, hstep, hpos, if_true]
    obtain ⟨row, hrow, rfl⟩ := Registry.exists_row_of_stored? hstored
    exact ⟨row, hrow, hmean⟩

end Learner

namespace Registry
variable {examples done : List (Datum × Datum)}

theorem afterAll_append_standard (r : Registry) (done : List (Datum × Datum)) (e : Datum × Datum) :
    r.afterAll ((done ++ [e]).map Call.standard) =
      ((Learner.confidenceWeighted Confidence.standard).train (r.afterAll (done.map Call.standard)) e.1 e.2).registry := by
  rw [List.map_append, afterAll, List.foldl_append]
  rfl

theorem isBounded_afterAll {r : Registry} (hr : r.Everywhere Weight.IsBounded)
    (h : ∀ before e, before ++ [e] <+: done → ∀ key cs, Learner.readExample e.1 e.2 = .ok (key, cs) →
      Learner.stepSize (r.afterAll (before.map Call.standard)) Confidence.standard cs key ≠ .infinite false) :
    (r.afterAll (done.map Call.standard)).Everywhere Weight.IsBounded := by
  induction done generalizing r with
  | nil => exact hr
  | cons e done ih =>
    have hfirst := Learner.isBounded_train hr (h [] e ((List.prefix_cons_inj e).mpr List.nil_prefix))
    refine ih hfirst fun before e' hbefore => ?_
    exact h (e :: before) e' ((List.prefix_cons_inj e).mpr hbefore)

/-- After each call of a session with the standard confidence parameter every stored mean is finite, if and only
if no call asks for an infinite step. -/
theorem means_finite_iff (examples : List (Datum × Datum)) :
    (∀ done, done <+: examples → ∀ row ∈ (Registry.empty.afterAll (done.map Call.standard)).rows,
      row.weight.mean.isFinite = true) ↔
    ∀ done e, done ++ [e] <+: examples → ∀ key cs, Learner.readExample e.1 e.2 = .ok (key, cs) →
      Learner.stepSize (Registry.empty.afterAll (done.map Call.standard)) Confidence.standard cs key ≠
        .infinite false := by
  constructor
  · intro hfinite done e hdone key cs hread hstep
    obtain ⟨row, hrow, hmean⟩ := Learner.exists_row_of_infinite hread hstep
    rw [← afterAll_append_standard] at hrow
    rw [hfinite _ hdone row hrow] at hmean
    cases hmean
  · intro h done hdone row hrow
    have hbounded := isBounded_afterAll (Everywhere.empty Weight.isBounded_unseen) fun before e hbefore =>
      h before e (hbefore.trans hdone)
    exact (hbounded.rows row hrow).isFinite

/-- A large value that leaves one weight sure of a small mean, its negative beside a key that has to make up
for it, and an example that this key puts far on the right side: the square of its margin overflows. -/
def overflowingExamples : List (Datum × Datum) :=
  [(.list [.text "f:1e18"], .text "A"), (.list [.text "f:-1e8", .text "g"], .text "A"),
    (.list [.text "g:1e12"], .text "A")]

/-- Whether the values of an example are all finite in four bytes. -/
def finiteValues (e : Datum × Datum) : Bool :=
  match Learner.readExample e.1 e.2 with
  | .ok (_, cs) => cs.all fun c => c.value.narrow.isFinite
  | .error _ => false

theorem mean_infinite_of_finiteValues :
    (overflowingExamples.all finiteValues) = true ∧
      ((Registry.empty.afterAll (overflowingExamples.map Call.standard)).rows.any fun row =>
        row.weight.mean = .infinite false) = true := by
  decide +kernel

end Registry

end OnlineLearning
