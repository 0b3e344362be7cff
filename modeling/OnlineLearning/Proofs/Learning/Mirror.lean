import OnlineLearning.Learning.Session
import OnlineLearning.Proofs.Binary.Opposite
import OnlineLearning.Proofs.Learning.Training
import OnlineLearning.Proofs.Learning.Writes

/-!
# Two labels mirror each other

A model that knows two labels always has each of them as the rival of the other, so whatever is added to a
weight of one is subtracted from the weight of the other, with the same covariance. The stores of both
labels mirror each other: the same keys in the same order, the same covariances, and opposite means. Learning
moves along one coordinate at a time, first the label and then its rival, and the mirror is whole again
after each coordinate (`Facing.stepBoth`, `Facing.shiftBoth`).
-/

namespace OnlineLearning

/-- A key that is neither null nor not-a-number, and so equals itself. -/
structure Key.IsProper (k : Key) : Prop where
  notNull : k.datum.isNull = false
  notNaN : k.datum.isNaN = false

/-- A call that learns an example of one of two labels. -/
def Call.LearnsOneOf (a b : Key) : Call → Prop
  | .train _ _ label => label.equals a.datum = true ∨ label.equals b.datum = true
  | .flush => False

/-- Opposite means, and the same covariance. -/
structure Weight.Mirror (v w : Weight) : Prop where
  mean : v.mean.Opposite w.mean
  covariance : v.covariance = w.covariance

namespace Weight.Mirror
variable {v w : Weight}

theorem symm (h : v.Mirror w) : w.Mirror v := ⟨h.mean.symm, h.covariance.symm⟩

/-- Weights stay mirrored when the same number is added to one mean and subtracted from the other. -/
theorem opposite_move (h : v.Mirror w) (toward : Bool) (move : Single) :
    Number.Opposite (if toward then v.mean.narrow + move else v.mean.narrow - move)
      (if !toward then w.mean.narrow + move else w.mean.narrow - move) := by
  have hnarrow : v.mean.narrow.Opposite w.mean.narrow := h.mean.convert
  cases toward with
  | true => exact hnarrow.add_sub move
  | false => exact (hnarrow.symm.add_sub move).symm

theorem apply (h : v.Mirror w) (toward : Bool) (x step phi : Single) :
    (Step.apply toward x step phi v).1.Mirror (Step.apply (!toward) x step phi w).1 := by
  have hmean := h.opposite_move toward (step * v.covariance.narrow * x)
  unfold Step.apply
  dsimp only
  rw [← h.covariance]
  split
  · exact ⟨hmean.convert, rfl⟩
  · exact ⟨hmean.convert, rfl⟩

theorem shift (h : v.Mirror w) (toward : Bool) (x : Single) :
    (Learner.shift toward x v).Mirror (Learner.shift (!toward) x w) :=
  ⟨(h.opposite_move toward x).convert, h.covariance⟩

theorem unseen : Weight.unseen.Mirror Weight.unseen :=
  ⟨Number.opposite_ofRank_zero false false, rfl⟩

end Weight.Mirror

/-- The same keys in the same order, and mirrored weights. -/
structure Store.Mirror (s t : Store) : Prop where
  keys : s.weights.keys = t.weights.keys
  weight : ∀ k, (s.get k).Mirror (t.get k)

namespace Store.Mirror
variable {s t : Store}

theorem symm (h : s.Mirror t) : t.Mirror s := ⟨h.keys.symm, fun k => (h.weight k).symm⟩

theorem empty : Store.Mirror {} {} := ⟨rfl, fun _ => .unseen⟩

theorem contains (h : s.Mirror t) (k : Key) : s.weights.contains k = t.weights.contains k := by
  rw [Bool.eq_iff_iff, Ledger.contains_iff, Ledger.contains_iff, h.keys]

theorem set (h : s.Mirror t) (k : Key) {v w : Weight} (hw : v.Mirror w) : (s.set k v).Mirror (t.set k w) := by
  constructor
  · rw [Store.set, Store.set, Ledger.keys_insert, Ledger.keys_insert, h.contains, h.keys]
  · intro l
    rw [get_set, get_set]
    split
    · exact hw
    · exact h.weight l

end Store.Mirror

namespace Registry
variable {r : Registry} {a b label rival : Key}

theorem equals_eq_same {k l : Key} (h : k.datum.isNaN = false) : k.datum.equals l.datum = l.same k := by
  rw [Datum.equals_comm_of_immutable k.immutable l.immutable, Datum.equals_eq_agrees h, Key.same]

/-- Two labels are known and no others, and their stores mirror each other. -/
structure Facing (r : Registry) (a b : Key) : Prop where
  labels : r.labels = [a, b]
  stores : (r.storeOf a).Mirror (r.storeOf b)

/-- The label is one of two labels, and the rival is the other. -/
def IsPair (a b label rival : Key) : Prop :=
  (label.same a = true ∧ rival = b) ∨ (label.same b = true ∧ rival = a)

namespace Facing

theorem same_eq_false (h : r.Facing a b) : a.same b = false := by
  have hdistinct := Ledger.pairwise_fst_iff.mp r.stores.distinct
  change r.labels.Pairwise fun a b => a.same b = false at hdistinct
  rw [h.labels] at hdistinct
  exact (List.pairwise_cons.mp hdistinct).1 b (List.mem_singleton_self b)

theorem label_same_rival (h : r.Facing a b) (hp : IsPair a b label rival) : label.same rival = false := by
  rcases hp with ⟨hl, rfl⟩ | ⟨hl, rfl⟩
  · rw [Key.same_congr_left hl]
    exact h.same_eq_false
  · rw [Key.same_congr_left hl, Key.same_comm]
    exact h.same_eq_false

theorem contains (h : r.Facing a b) (hp : IsPair a b label rival) :
    r.contains label = true ∧ r.contains rival = true := by
  rw [contains_iff, contains_iff, h.labels]
  rcases hp with ⟨hl, rfl⟩ | ⟨hl, rfl⟩
  · exact ⟨⟨a, by simp, Key.same_symm hl⟩, rival, by simp, Key.same_self _⟩
  · exact ⟨⟨b, by simp, Key.same_symm hl⟩, rival, by simp, Key.same_self _⟩

theorem mirror (h : r.Facing a b) (hp : IsPair a b label rival) :
    (r.storeOf label).Mirror (r.storeOf rival) := by
  rcases hp with ⟨hl, rfl⟩ | ⟨hl, rfl⟩
  · rw [storeOf_congr r hl]
    exact h.stores
  · rw [storeOf_congr r hl]
    exact h.stores.symm

theorem of_mirror (hp : IsPair a b label rival) (hlabels : r.labels = [a, b])
    (h : (r.storeOf label).Mirror (r.storeOf rival)) : r.Facing a b := by
  refine ⟨hlabels, ?_⟩
  rcases hp with ⟨hl, rfl⟩ | ⟨hl, rfl⟩
  · rwa [storeOf_congr r hl] at h
  · rw [storeOf_congr r hl] at h
    exact h.symm

/-- Mirrored weights that are set at one key of both labels keep the mirror whole. -/
theorem set_set (h : r.Facing a b) (hp : IsPair a b label rival) (k : Key) {v w : Weight}
    (hvw : v.Mirror w) : ((r.set label k v).set rival k w).Facing a b := by
  have hne := h.label_same_rival hp
  obtain ⟨hlabel, hrival⟩ := h.contains hp
  have hlabels : (r.set label k v).labels = r.labels := by rw [labels_set, if_pos hlabel]
  have hrival' : (r.set label k v).contains rival = true := by
    rw [contains_iff, hlabels, ← contains_iff]
    exact hrival
  refine of_mirror hp ?_ ?_
  · rw [labels_set, if_pos hrival', hlabels, h.labels]
  · have hne' : rival.same label = false := by rwa [Key.same_comm]
    rw [storeOf_set, hne', storeOf_set _ rival, Key.same_self, storeOf_set, storeOf_set, Key.same_self, hne]
    exact (h.mirror hp).set k hvw

theorem weight_set_label (h : r.Facing a b) (hp : IsPair a b label rival) (k : Key) (v : Weight) :
    (r.set label k v).weight rival k = r.weight rival k := by
  rw [weight_set, h.label_same_rival hp]
  rfl

theorem stepBoth {state : Registry × List Notice} (h : state.1.Facing a b) (hp : IsPair a b label rival)
    (size phi : Single) (c : Coordinate) :
    (Registry.stepBoth size phi label (some rival) state c).1.Facing a b := by
  have hmirror := ((h.mirror hp).weight c.key).apply true c.value.narrow size phi
  show ((state.1.set label c.key _).set rival c.key (Step.apply false c.value.narrow size phi _).1).Facing a b
  rw [h.weight_set_label hp]
  exact h.set_set hp c.key hmirror

theorem shiftBoth (h : r.Facing a b) (hp : IsPair a b label rival) (c : Coordinate) :
    (Learner.shiftBoth label (some rival) r c).Facing a b := by
  have hmirror := ((h.mirror hp).weight c.key).shift true c.value.narrow
  show ((r.set label c.key _).set rival c.key (Learner.shift false c.value.narrow _)).Facing a b
  rw [h.weight_set_label hp]
  exact h.set_set hp c.key hmirror

theorem createBoth (h : r.Facing a b) (hp : IsPair a b label rival) :
    (r.create label).create rival = r := by
  obtain ⟨hlabel, hrival⟩ := h.contains hp
  rw [create_of_contains hlabel, create_of_contains hrival]

theorem step (h : r.Facing a b) (hp : IsPair a b label rival) (size phi : Single) (cs : List Coordinate) :
    (r.step size phi label (some rival) cs).1.Facing a b := by
  unfold Registry.step
  dsimp only
  rw [h.createBoth hp]
  exact List.foldlRecOn (motive := fun state : Registry × List Notice => state.1.Facing a b) cs _ h
    fun state hs c _ => hs.stepBoth hp size phi c

theorem shiftAll (h : r.Facing a b) (hp : IsPair a b label rival) (cs : List Coordinate) :
    (Learner.shiftAll r label (some rival) cs).Facing a b := by
  unfold Learner.shiftAll
  dsimp only
  rw [h.createBoth hp]
  exact List.foldlRecOn (motive := fun r => Facing r a b) cs _ h fun r hr c _ => hr.shiftBoth hp c

/-- The rival of one of the two labels is the other one, whatever the scores are. -/
theorem rival_eq (h : r.Facing a b) (ha : a.IsProper) (hb : b.IsProper) (withVariance : Bool)
    (cs : List Coordinate) (hl : label.same a = true ∨ label.same b = true) :
    ∃ rival, (r.margin withVariance cs label).rival = some rival ∧ IsPair a b label rival := by
  have hne := h.same_eq_false
  have hsize : r.size ≠ 0 := by
    rw [size_eq_length, h.labels]
    exact Nat.succ_ne_zero 1
  have hothers : ∃ rival, (r.others withVariance cs label) = [r.contender withVariance cs rival] ∧
      IsPair a b label rival := by
    rw [others_eq, h.labels, List.filter_cons, List.filter_cons, equals_eq_same ha.notNaN, equals_eq_same hb.notNaN]
    rcases hl with hl | hl
    · rw [hl, Key.same_congr_left hl, hne]
      exact ⟨b, rfl, .inl ⟨hl, rfl⟩⟩
    · rw [hl, Key.same_congr_left hl, Key.same_comm, hne]
      exact ⟨a, rfl, .inr ⟨hl, rfl⟩⟩
  obtain ⟨rival, hothers, hp⟩ := hothers
  refine ⟨rival, ?_, hp⟩
  have hleader : Contender.leader? (r.others withVariance cs label) = some (r.contender withVariance cs rival) := by
    rw [hothers]
    rfl
  have hproper : rival.IsProper := by
    rcases hp with ⟨-, rfl⟩ | ⟨-, rfl⟩
    · exact hb
    · exact ha
  rw [margin_of_leader hsize hleader]
  exact Contender.label?_eq_some_iff.mpr ⟨rfl, hproper.notNull⟩

theorem learn (h : r.Facing a b) (ha : a.IsProper) (hb : b.IsProper) (learner : Learner) (cs : List Coordinate)
    (hl : label.same a = true ∨ label.same b = true) : (learner.learn r cs label).2.1.Facing a b := by
  cases learner with
  | perceptron =>
    obtain ⟨rival, hrival, hp⟩ := h.rival_eq ha hb false cs hl
    simp only [Learner.learn]
    split
    · exact h
    · rw [hrival]
      exact h.shiftAll hp cs
  | confidenceWeighted phi =>
    obtain ⟨rival, hrival, hp⟩ := h.rival_eq ha hb true cs hl
    simp only [Learner.learn]
    split
    · rw [hrival]
      exact h.step hp _ _ cs
    · exact h

theorem train (h : r.Facing a b) (ha : a.IsProper) (hb : b.IsProper) (learner : Learner) (tokens label : Datum)
    (hl : label.equals a.datum = true ∨ label.equals b.datum = true) :
    (learner.train r tokens label).registry.Facing a b := by
  unfold Learner.train
  split
  · exact h
  rename_i key cs hread
  obtain ⟨-, hkey, -⟩ := Learner.exists_of_readExample hread
  obtain rfl := Datum.toKey_eq_ok_iff.mp hkey
  rw [Datum.equals_eq_agrees ha.notNaN, Datum.equals_eq_agrees hb.notNaN] at hl
  exact h.learn ha hb learner cs hl

theorem afterAll (h : r.Facing a b) (ha : a.IsProper) (hb : b.IsProper) {calls : List Call}
    (hcalls : ∀ call ∈ calls, call.LearnsOneOf a b) : (r.afterAll calls).Facing a b := by
  unfold Registry.afterAll
  refine List.foldlRecOn (motive := fun r => Facing r a b) calls _ h fun r hr call hcall => ?_
  have hlearns := hcalls call hcall
  cases call with
  | train learner tokens label => exact hr.train ha hb learner tokens label hlearns
  | flush => exact absurd hlearns id

theorem createBoth_empty (hne : a.same b = false) : ((empty.create a).create b).Facing a b := by
  have hlabels : (empty.create a).labels = [a] := rfl
  have hcontains : (empty.create a).contains b = false := by
    rw [Bool.eq_false_iff, ne_eq, contains_iff, hlabels]
    rintro ⟨l, hl, hsame⟩
    rw [List.mem_singleton.mp hl, hne] at hsame
    cases hsame
  constructor
  · rw [labels_create, hcontains, hlabels]
    rfl
  · rw [storeOf_create, storeOf_create, storeOf_create, storeOf_create]
    exact .empty

end Facing

/-- Two labels that are known before anything is learned, and then learned by turns with any learners, have
the same keys in the same order, the same covariances and opposite means. -/
theorem mirror_afterAll (hne : a.same b = false) (ha : a.IsProper) (hb : b.IsProper) {calls done : List Call}
    (hcalls : ∀ call ∈ calls, call.LearnsOneOf a b) (hdone : done <+: calls) :
    ∃ s t : Store, (((empty.create a).create b).afterAll done).stores.entries = [(a, s), (b, t)] ∧
      s.weights.keys = t.weights.keys ∧
      ∀ key, (s.get key).covariance = (t.get key).covariance ∧ (s.get key).mean.Opposite (t.get key).mean := by
  have hfacing : (((empty.create a).create b).afterAll done).Facing a b :=
    (Facing.createBoth_empty hne).afterAll ha hb fun call hcall => hcalls call (hdone.mem hcall)
  refine ⟨_, _, ?_, hfacing.stores.keys, fun key => ?_⟩
  · rw [entries_eq_map, hfacing.labels]
    rfl
  · have hmirror := hfacing.stores.weight key
    exact ⟨hmirror.covariance, hmirror.mean⟩

end Registry

/-- Labels that are learned by turns: a key that comes twice, a value whose square overflows, a
label in another form, an example that cannot be read, and a value that is not a number. -/
def Call.turnsSample : List Call :=
  [.train (.confidenceWeighted 1) (.list [.text "f:3", .text "g", .text "f"]) (.int 1),
    .train .perceptron (.list [.text "f:2", .text "h:1e30"]) (.text "b"),
    .train (.confidenceWeighted 2) (.list [.text "f:x"]) (.text "b"),
    .train (.confidenceWeighted 2) (.list [.text "g:-0.5", .text "k:-0.0"]) (.bool true),
    .train .perceptron (.list [.text "g", .text "k:nan"]) (.text "b")]

theorem Call.learnsOneOf_turnsSample :
    ∀ call ∈ turnsSample, call.LearnsOneOf ⟨.int 1, rfl⟩ (Key.ofText "b") := by
  intro call hcall
  simp only [turnsSample, List.mem_cons, List.not_mem_nil, or_false] at hcall
  rcases hcall with rfl | rfl | rfl | rfl | rfl
  · exact .inl rfl
  · exact .inr rfl
  · exact .inr rfl
  · exact .inl rfl
  · exact .inr rfl

theorem Registry.mirror_afterAll_turnsSample :
    ∃ s t : Store, (((Registry.empty.create ⟨.int 1, rfl⟩).create (Key.ofText "b")).afterAll Call.turnsSample).stores.entries =
        [(⟨.int 1, rfl⟩, s), (Key.ofText "b", t)] ∧
      s.weights.keys = t.weights.keys ∧ s.weights.size = 4 ∧
      ∀ key, (s.get key).covariance = (t.get key).covariance ∧ (s.get key).mean.Opposite (t.get key).mean := by
  obtain ⟨s, t, hentries, hkeys, hweights⟩ :=
    Registry.mirror_afterAll (a := ⟨.int 1, rfl⟩) (b := Key.ofText "b") rfl ⟨rfl, rfl⟩ ⟨rfl, rfl⟩ Call.learnsOneOf_turnsSample
      List.prefix_rfl
  have hsizes : (((Registry.empty.create ⟨.int 1, rfl⟩).create (Key.ofText "b")).afterAll
      Call.turnsSample).stores.entries.map (fun e => e.2.weights.size) = [4, 4] := by decide +kernel
  rw [hentries] at hsizes
  exact ⟨s, t, hentries, hkeys, (List.cons.inj hsizes).1, hweights⟩

end OnlineLearning
