import OnlineLearning.Learning.Request
import OnlineLearning.Proofs.Model.Alike

/-!
# Requests cannot tell models apart that read alike

Models that are alike give one answer to a request, with the same notices, and are alike afterwards
(`serve`). So they are never told apart, however many requests come (`replies_of_alike`). The proof goes
through the operations one by one: what they read is the same on both sides, hence what they write is,
and a write keeps models alike.
-/

namespace OnlineLearning

/-- The same result and the same notices, and models that are alike. -/
structure Outcome.Alike {α : Type} (x y : Outcome α) : Prop where
  result : x.result = y.result
  registry : x.registry.Alike y.registry
  notices : x.notices = y.notices

namespace Outcome
variable {α β : Type} {r s : Registry}

theorem Alike.map {x y : Outcome α} (h : x.Alike y) (f : α → β) : (x.map f).Alike (y.map f) :=
  ⟨congrArg (Except.map f) h.result, h.registry, h.notices⟩

theorem alike_unchanged (h : r.Alike s) {a b : Except Fault α} (hab : a = b) :
    (unchanged r a).Alike (unchanged s b) := ⟨hab, h, rfl⟩

theorem alike_error (h : r.Alike s) (e : Fault) : (⟨.error e, r, []⟩ : Outcome α).Alike ⟨.error e, s, []⟩ :=
  ⟨rfl, h, rfl⟩

end Outcome

namespace Registry

/-- Models that are alike, with the same notices. -/
def AlikeWith (x y : Registry × List Notice) : Prop := x.1.Alike y.1 ∧ x.2 = y.2

namespace Alike
variable {r s : Registry}

theorem stepAt {x y : Registry × List Notice} (h : AlikeWith x y) (step phi : Single) (toward : Bool) (label : Key)
    (c : Coordinate) :
    AlikeWith (Registry.stepAt step phi toward label c x) (Registry.stepAt step phi toward label c y) := by
  obtain ⟨hmodels, hnotices⟩ := h
  unfold Registry.stepAt
  dsimp only
  rw [hmodels.weight, hnotices]
  exact ⟨hmodels.set label c.key _, rfl⟩

theorem stepBoth {x y : Registry × List Notice} (h : AlikeWith x y) (step phi : Single) (label : Key)
    (rival : Option Key) (c : Coordinate) :
    AlikeWith (Registry.stepBoth step phi label rival x c) (Registry.stepBoth step phi label rival y c) := by
  have hlabel := stepAt h step phi true label c
  unfold Registry.stepBoth
  cases rival with
  | none => exact hlabel
  | some rival => exact stepAt hlabel step phi false rival c

theorem createBoth (h : r.Alike s) (label : Key) (rival : Option Key) :
    (match rival with
      | none => r.create label
      | some rival => (r.create label).create rival).Alike
    (match rival with
      | none => s.create label
      | some rival => (s.create label).create rival) := by
  cases rival with
  | none => exact h.create label
  | some rival => exact (h.create label).create rival

theorem step (h : r.Alike s) (step phi : Single) (label : Key) (rival : Option Key) (cs : List Coordinate) :
    AlikeWith (r.step step phi label rival cs) (s.step step phi label rival cs) := by
  unfold Registry.step
  have hstart := h.createBoth label rival
  exact List.foldl_rel (r := AlikeWith) ⟨hstart, rfl⟩ fun c _ _ _ hstate => stepBoth hstate step phi label rival c

theorem shiftBoth (h : r.Alike s) (label : Key) (rival : Option Key) (c : Coordinate) :
    (Learner.shiftBoth label rival r c).Alike (Learner.shiftBoth label rival s c) := by
  unfold Learner.shiftBoth
  dsimp only
  rw [h.weight]
  have hlabel := h.set label c.key (Learner.shift true c.value.narrow (s.weight label c.key))
  cases rival with
  | none => exact hlabel
  | some rival =>
    dsimp only
    rw [hlabel.weight]
    exact hlabel.set rival c.key _

theorem shiftAll (h : r.Alike s) (label : Key) (rival : Option Key) (cs : List Coordinate) :
    (Learner.shiftAll r label rival cs).Alike (Learner.shiftAll s label rival cs) := by
  unfold Learner.shiftAll
  have hstart := h.createBoth label rival
  exact List.foldl_rel (r := Registry.Alike) hstart fun c _ _ _ hstate => hstate.shiftBoth label rival c

theorem learn (h : r.Alike s) (learner : Learner) (cs : List Coordinate) (label : Key) :
    (learner.learn r cs label).1 = (learner.learn s cs label).1 ∧
      AlikeWith (learner.learn r cs label).2 (learner.learn s cs label).2 := by
  cases learner with
  | perceptron =>
    simp only [Learner.learn, h.margin]
    split
    · exact ⟨rfl, h, rfl⟩
    · exact ⟨rfl, h.shiftAll label _ cs, rfl⟩
  | confidenceWeighted phi =>
    simp only [Learner.learn, h.margin]
    split
    · obtain ⟨hmodels, hnotices⟩ := h.step
        (Step.size (s.margin true cs label).value (s.margin true cs label).variance phi.narrow).1 phi.narrow
        label (s.margin true cs label).rival cs
      refine ⟨rfl, hmodels, ?_⟩
      dsimp only
      rw [hnotices]
    · exact ⟨rfl, h, rfl⟩

theorem train (h : r.Alike s) (learner : Learner) (tokens label : Datum) :
    (learner.train r tokens label).Alike (learner.train s tokens label) := by
  unfold Learner.train
  split
  · exact Outcome.alike_error h _
  · rename_i key cs hread
    obtain ⟨hchanged, hmodels, hnotices⟩ := h.learn learner cs key
    exact ⟨congrArg Except.ok hchanged, hmodels, hnotices⟩

theorem stepFeatures (h : r.Alike s) (step phi : Single) (label : Key) (rival : Option Key) (fs : List Feature) :
    (r.stepFeatures step phi label rival fs).Alike (s.stepFeatures step phi label rival fs) := by
  obtain ⟨hmodels, hnotices⟩ := h.step step phi label rival (Feature.coordinates fs).1
  exact ⟨rfl, hmodels, hnotices⟩

theorem update (h : r.Alike s) (tokens : Datum) (step phi : Double) (label rival : Datum) :
    (r.update tokens step phi label rival).Alike (s.update tokens step phi label rival) := by
  unfold Registry.update
  split
  · exact Outcome.alike_error h _
  split
  · exact Outcome.alike_error h _
  split
  · exact Outcome.alike_error h _
  rename_i fs hfs
  split
  · exact Outcome.alike_error h _
  rename_i labelKey hlabel
  split
  · exact h.stepFeatures step.narrow phi.narrow labelKey none fs
  split
  · -- the label is known by then, although its rival cannot be a key
    exact Outcome.alike_error (h.create labelKey) _
  · exact h.stepFeatures step.narrow phi.narrow labelKey _ fs

theorem serve (h : r.Alike s) (request : Request) : (r.serve request).Alike (s.serve request) := by
  cases request with
  | predict tokens =>
    have hpredict : r.predictFeatures = s.predictFeatures := funext h.predictFeatures
    refine Outcome.alike_unchanged h (congrArg _ ?_)
    rw [predictTokens, predictTokens, hpredict]
  | evaluate withVariance tokens label =>
    refine Outcome.alike_unchanged h ?_
    simp only [h.marginOf]
  | update tokens step phi label rival => exact (h.update tokens step phi label rival).map _
  | train learner tokens label => exact (h.train learner tokens label).map _
  | weight label key => exact Outcome.alike_unchanged h (congrArg _ (h.weightOf label key))

theorem served (h : r.Alike s) (requests : List Request) : (r.served requests).Alike (s.served requests) :=
  List.foldl_rel (r := Registry.Alike) h fun request _ _ _ hmodels => (hmodels.serve request).registry

theorem replies (h : r.Alike s) (requests : List Request) : r.replies requests = s.replies requests := by
  induction requests generalizing r s with
  | nil => rfl
  | cons request requests ih =>
    have hserve := h.serve request
    rw [Registry.replies, Registry.replies, hserve.result, hserve.notices, ih hserve.registry]

end Alike

theorem alike_set {r : Registry} {label : Key} (hknown : r.contains label = true) (key : Key) :
    (r.set label key (r.weight label key)).Alike r := by
  constructor
  · rw [labels_set, if_pos hknown]
  · intro l k
    rw [weight_set]
    split
    · rename_i hsame
      obtain ⟨hl, hk⟩ := Bool.and_eq_true_iff.mp hsame
      exact weight_congr r hl hk
    · rfl

/-- Models with the same labels in the same order and the same weights answer all requests alike, with the
same notices, and have the same labels and weights after each of them. -/
theorem replies_of_alike {r s : Registry} (hlabels : r.labels = s.labels)
    (hweights : ∀ label key, r.weightOf label key = s.weightOf label key) (requests : List Request) :
    r.replies requests = s.replies requests ∧
      ∀ done, done <+: requests → (r.served done).labels = (s.served done).labels ∧
        ∀ label key, (r.served done).weightOf label key = (s.served done).weightOf label key := by
  have halike : r.Alike s := alike_iff.mpr ⟨hlabels, hweights⟩
  exact ⟨halike.replies requests, fun done _ => alike_iff.mp (halike.served done)⟩

/-- A model with one stored weight. -/
def plainSample : Registry := Registry.empty.set (Key.ofText "A") (Key.ofText "g") ⟨2, 1⟩

/-- The same weight beside a stored default. -/
def paddedSample : Registry := plainSample.set (Key.ofText "A") (Key.ofText "f") Weight.unseen

/-- An update that stops half way, a call that learns a second label, and a question. -/
def requestsSample : List Request :=
  [.update (.list [.text "f", .tuple [.tuple [.list []], .int 1]]) 1 1 (.text "A") .null,
    .train .perceptron (.list [.text "g"]) (.text "B"), .predict (.list [.text "f", .text "g"])]

theorem replies_of_alike_paddedSample :
    paddedSample.weightCount = 2 ∧ plainSample.weightCount = 1 ∧
      paddedSample.replies requestsSample = plainSample.replies requestsSample ∧
      ((paddedSample.replies requestsSample).map fun reply => reply.1.toOption.isSome) = [false, true, true] ∧
      (paddedSample.served requestsSample).labels = (plainSample.served requestsSample).labels := by
  have hknown : plainSample.contains (Key.ofText "A") = true := by decide +kernel
  have halike : paddedSample.Alike plainSample := alike_set hknown (Key.ofText "f")
  obtain ⟨hreplies, hserved⟩ := replies_of_alike halike.labels halike.weightOf requestsSample
  exact ⟨by decide +kernel, by decide +kernel, hreplies, by decide +kernel, (hserved _ List.prefix_rfl).1⟩

end Registry

end OnlineLearning
