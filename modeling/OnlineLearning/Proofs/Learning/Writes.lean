import OnlineLearning.Learning.Request
import OnlineLearning.Learning.Session
import OnlineLearning.Proofs.Learning.Rival
import OnlineLearning.Proofs.Model.Readings

/-!
# What learning writes

A learner writes to a model in two ways only: it makes a label known, or it rewrites one weight, by
`Step.apply` of a step size that is above zero or by `Learner.shift`. So what holds of a model and
comes through both of them holds after an update (`step_induction`, `shiftAll_induction`), after a
call (`train_induction`), after any request (`serve_induction`) and after every call of a session
(`afterAll_induction`). A property of single weights needs to come through the second only:
`Everywhere.afterAll`.
-/

namespace OnlineLearning

namespace Learner

/-- A property of weights that one learner keeps. -/
def Keeps (P : Weight → Prop) : Learner → Prop
  | perceptron => ∀ toward x w, P w → P (shift toward x w)
  | confidenceWeighted phi => ∀ toward x step w, Number.less 0 step = true → P w →
      P (Step.apply toward x step phi.narrow w).1

/-- What a learner makes of a weight. -/
inductive Rewrites : Learner → Weight → Weight → Prop where
  | shift (toward : Bool) (x : Single) (w : Weight) : Rewrites perceptron w (shift toward x w)
  | step (phi : Double) (toward : Bool) (x size : Single) (w : Weight) (h : Number.less 0 size = true) :
      Rewrites (confidenceWeighted phi) w (Step.apply toward x size phi.narrow w).1

theorem Keeps.rewrites {P : Weight → Prop} {learner : Learner} {w w' : Weight} (hP : learner.Keeps P)
    (h : learner.Rewrites w w') (hw : P w) : P w' := by
  cases h with
  | shift toward x => exact hP toward x w hw
  | step phi toward x size _ hpos => exact hP toward x size w hpos hw

section
variable {tokens label : Datum} {key : Key} {cs : List Coordinate}

theorem exists_of_readExample
    (h : readExample tokens label = .ok (key, cs)) :
    label.isNull = false ∧ label.toKey = .ok key ∧
      ∃ fs, Feature.ofTokens tokens = .ok fs ∧ Feature.toCoordinates fs = .ok cs := by
  unfold readExample at h
  split at h
  · cases h
  rename_i hnull
  obtain ⟨fs, htokens, h⟩ := exists_of_bind_eq_ok h
  obtain ⟨key', hkey, h⟩ := exists_of_bind_eq_ok h
  obtain ⟨cs', hcs, h⟩ := exists_of_bind_eq_ok h
  cases h
  exact ⟨Bool.eq_false_iff.mpr hnull, hkey, fs, htokens, hcs⟩

theorem isNull_of_readExample (h : readExample tokens label = .ok (key, cs)) : key.datum.isNull = false := by
  obtain ⟨hnull, hkey, -⟩ := exists_of_readExample h
  rw [Datum.toKey_eq_ok_iff.mp hkey]
  exact hnull

theorem result_train (learner : Learner) (h : readExample tokens label = .ok (key, cs)) (r : Registry) :
    (learner.train r tokens label).result = .ok (learner.learn r cs key).1 := by
  rw [train, h]

theorem registry_train (learner : Learner) (h : readExample tokens label = .ok (key, cs)) (r : Registry) :
    (learner.train r tokens label).registry = (learner.learn r cs key).2.1 := by
  rw [train, h]

end

end Learner

namespace Registry
variable {Q : Registry → Prop} {r : Registry}

section
variable {label : Key} {rival : Option Key} {cs : List Coordinate}

theorem create_both (hr : Q r) :
    (∀ r l, (l = label ∨ rival = some l) → Q r → Q (r.create l)) →
    Q (match rival with
      | none => r.create label
      | some rival => (r.create label).create rival) := by
  intro hcreate
  have hlabel : Q (r.create label) := hcreate r label (.inl rfl) hr
  cases rival with
  | none => exact hlabel
  | some rival => exact hcreate _ rival (.inr rfl) hlabel

theorem step_induction {size phi : Single} (hr : Q r)
    (hcreate : ∀ r l, (l = label ∨ rival = some l) → Q r → Q (r.create l))
    (hset : ∀ r l c toward, (l = label ∨ rival = some l) → c ∈ cs → Q r →
      Q (r.set l c.key (Step.apply toward c.value.narrow size phi (r.weight l c.key)).1)) :
    Q (r.step size phi label rival cs).1 := by
  unfold step
  refine List.foldlRecOn (motive := fun state : Registry × List Notice => Q state.1) cs _
    (create_both hr hcreate) fun state hs c hc => ?_
  have hlabel : Q (stepAt size phi true label c state).1 := hset state.1 label c true (.inl rfl) hc hs
  unfold stepBoth
  cases rival with
  | none => exact hlabel
  | some rival => exact hset _ rival c false (.inr rfl) hc hlabel

theorem shiftAll_induction (hr : Q r)
    (hcreate : ∀ r l, (l = label ∨ rival = some l) → Q r → Q (r.create l))
    (hset : ∀ r l c toward, (l = label ∨ rival = some l) → c ∈ cs → Q r →
      Q (r.set l c.key (Learner.shift toward c.value.narrow (r.weight l c.key)))) :
    Q (Learner.shiftAll r label rival cs) := by
  unfold Learner.shiftAll
  refine List.foldlRecOn (motive := Q) cs _ (create_both hr hcreate) fun r hr c hc => ?_
  have hlabel := hset r label c true (.inl rfl) hc hr
  unfold Learner.shiftBoth
  cases rival with
  | none => exact hlabel
  | some rival => exact hset _ rival c false (.inr rfl) hc hlabel

end

theorem learn_induction {learner : Learner} {label : Key} (cs : List Coordinate) (hr : Q r)
    (hnull : label.datum.isNull = false)
    (hcreate : ∀ (r : Registry) (l : Key), l.datum.isNull = false → Q r → Q (r.create l))
    (hset : ∀ (r : Registry) (l k : Key) (w : Weight), l.datum.isNull = false →
      learner.Rewrites (r.weight l k) w → Q r → Q (r.set l k w)) :
    Q (learner.learn r cs label).2.1 := by
  -- the rival is one of the known labels that are not null, so neither label written to is null
  have hwritten : ∀ withVariance l, (l = label ∨ (r.margin withVariance cs label).rival = some l) →
      l.datum.isNull = false := by
    rintro withVariance l (rfl | hl)
    · exact hnull
    · exact (exists_of_rival hl).2.1
  cases learner with
  | perceptron =>
    simp only [Learner.learn]
    split
    · exact hr
    · exact shiftAll_induction hr (fun r l hl => hcreate r l (hwritten _ l hl))
        fun r l c toward hl _ => hset r l c.key _ (hwritten _ l hl) (.shift toward _ _)
  | confidenceWeighted phi =>
    simp only [Learner.learn]
    split
    · rename_i hpos
      exact step_induction hr (fun r l hl => hcreate r l (hwritten _ l hl))
        fun r l c toward hl _ => hset r l c.key _ (hwritten _ l hl) (.step phi toward _ _ _ hpos)
    · exact hr

theorem train_induction {learner : Learner} (tokens label : Datum) (hr : Q r)
    (hcreate : ∀ (r : Registry) (l : Key), l.datum.isNull = false → Q r → Q (r.create l))
    (hset : ∀ (r : Registry) (l k : Key) (w : Weight), l.datum.isNull = false →
      learner.Rewrites (r.weight l k) w → Q r → Q (r.set l k w)) :
    Q (learner.train r tokens label).registry := by
  unfold Learner.train
  split
  · exact hr
  · rename_i hread
    exact learn_induction _ hr (Learner.isNull_of_readExample hread) hcreate hset

/-- An update that breaks off has written no other way than one that ends well. -/
theorem update_induction (tokens : Datum) (step phi : Double) (label rival : Datum) (hr : Q r)
    (hcreate : ∀ (r : Registry) (l : Key), Q r → Q (r.create l))
    (hset : ∀ (r : Registry) (l k : Key) (w : Weight), Q r → Q (r.set l k w)) :
    Q (r.update tokens step phi label rival).registry := by
  have hstep : ∀ label rival cs, Q (r.step step.narrow phi.narrow label rival cs).1 := fun label rival cs =>
    step_induction hr (fun r l _ => hcreate r l) fun r l c toward _ _ => hset r l c.key _
  unfold update
  split
  · exact hr
  split
  · exact hr
  split
  · exact hr
  split
  · exact hr
  rename_i labelKey _
  split
  · exact hstep labelKey none _
  split
  · exact hcreate r labelKey hr
  · exact hstep labelKey _ _

/-- What comes through every write comes through every request. -/
theorem serve_induction (request : Request) (hr : Q r)
    (hcreate : ∀ (r : Registry) (l : Key), Q r → Q (r.create l))
    (hset : ∀ (r : Registry) (l k : Key) (w : Weight), Q r → Q (r.set l k w)) :
    Q (r.serve request).registry := by
  cases request with
  | predict tokens => exact hr
  | evaluate withVariance tokens label => exact hr
  | update tokens step phi label rival => exact update_induction tokens step phi label rival hr hcreate hset
  | train learner tokens label =>
    exact train_induction tokens label hr (fun r l _ => hcreate r l) fun r l k w _ _ => hset r l k w
  | weight label key => exact hr

/-- What holds of a model without labels, and comes through every write of the learners of a session,
holds when the session is over. -/
theorem afterAll_induction {calls : List Call} (hempty : Q .empty) (hr : Q r)
    (hcreate : ∀ (r : Registry) (l : Key), l.datum.isNull = false → Q r → Q (r.create l))
    (hset : ∀ learner tokens label, .train learner tokens label ∈ calls →
      ∀ (r : Registry) (l k : Key) (w : Weight), l.datum.isNull = false →
        learner.Rewrites (r.weight l k) w → Q r → Q (r.set l k w)) :
    Q (r.afterAll calls) := by
  unfold afterAll
  refine List.foldlRecOn (motive := Q) calls _ hr fun r hr call hcall => ?_
  cases call with
  | train learner tokens label =>
    exact train_induction tokens label hr hcreate (hset learner tokens label hcall)
  | flush => exact hempty

theorem Everywhere.afterAll {P : Weight → Prop} {quantile : Double → Double} (h0 : P Weight.unseen)
    (hP : ∀ learner : Learner, learner.Obtainable quantile → learner.Keeps P) {calls : List Call}
    (hcalls : ∀ call ∈ calls, call.Obtainable quantile) (h : Everywhere P r) :
    Everywhere P (r.afterAll calls) := by
  refine afterAll_induction (Everywhere.empty h0) h (fun r l _ hr => hr.create l) ?_
  intro learner tokens label hcall r l k w _ hw hr
  exact hr.set l k ((hP learner (hcalls _ hcall)).rewrites hw (hr l k))

end Registry

end OnlineLearning
