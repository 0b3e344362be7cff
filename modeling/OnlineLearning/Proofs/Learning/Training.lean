import OnlineLearning.Proofs.Learning.Separation

/-!
# What one call of a confidence-weighted learner does

A call reads its tokens, sizes the step from the margin, and hands its features on to an update,
which reads them once more. Features that were read once are read again as they are, and a label
never meets itself as its rival, so nothing in the update can fail (`train_eq_update`). What the
model holds afterwards is `weight_step`, label by label and key by key.
-/

namespace OnlineLearning

namespace Datum

theorem equals_comm_of_immutable {a b : Datum} (ha : a.mutablePart? = none) (hb : b.mutablePart? = none) :
    a.equals b = b.equals a := by
  unfold equals
  split
  · rename_i x _ y _
    exact Number.same_comm x y
  · rename_i hne
    split
    · exact absurd rfl (hne _ _ _ _ rfl)
    · exact Bool.eq_iff_iff.mpr ⟨agrees_symm ha, agrees_symm hb⟩

theorem mutablePart?_of_toKey {d : Datum} {k : Key} (h : d.toKey = .ok k) : d.mutablePart? = none := by
  rw [← toKey_eq_ok_iff.mp h]
  exact k.immutable

end Datum

namespace Feature

theorem coordinates_of_toCoordinates {fs : List Feature} {cs : List Coordinate}
    (h : toCoordinates fs = .ok cs) : coordinates fs = (cs, none) := by
  unfold toCoordinates at h
  split at h
  · rename_i cs' hc
    rw [hc, Except.ok.inj h]
  · cases h

end Feature

theorem Coordinate.valuesAt_eq_nil {cs : List Coordinate} {k : Key} (h : ∀ c ∈ cs, c.key.same k = false) :
    valuesAt cs k = [] := by
  have hnone : (cs.filter fun c => c.key.same k) = [] :=
    List.filter_eq_nil_iff.mpr fun c hc => by simp [h c hc]
  rw [valuesAt, hnone]
  rfl

namespace Registry

section
variable {label l : Key} {rival : Option Key}

theorem direction?_label : direction? label rival label = some true := by
  rw [direction?, Key.same_self, if_pos rfl]

theorem direction?_rival (hne : ∀ k, rival = some k → label.same k = false) (h : rival = some l) :
    direction? label rival l = some false := by
  subst h
  simp [direction?, hne l rfl, Key.same_self]

theorem direction?_other (hl : label.same l = false) (hr : ∀ k, rival = some k → k.same l = false) :
    direction? label rival l = none := by
  unfold direction?
  rw [hl]
  cases rival with
  | none => rfl
  | some k => simp [hr k rfl]

end

variable {tokens label rival : Datum} {fs : List Feature} {cs : List Coordinate} {key : Key}

theorem marginOf_eq_ok {r : Registry} {withVariance : Bool} (hkey : label.toKey = .ok key)
    (hcs : Feature.toCoordinates fs = .ok cs) :
    r.marginOf withVariance fs label = .ok (r.margin withVariance cs key) := by
  unfold marginOf
  rw [hkey, hcs]
  rfl

/-- The rival of a label as a datum; null where there is none. -/
def rivalDatum (rival : Option Key) : Datum := (rival.map Key.datum).getD .null

theorem update_eq_step {r : Registry} {step phi : Double} {rival : Option Key}
    (hnull : label.isNull = false) (hkey : label.toKey = .ok key)
    (hrival : ∀ k, rival = some k → k.datum.isNull = false ∧ label.equals k.datum = false)
    (htokens : Feature.ofTokens tokens = .ok fs) (hcs : Feature.toCoordinates fs = .ok cs) :
    r.update tokens step phi label (rivalDatum rival) =
      ⟨.ok (), (r.step step.narrow phi.narrow key rival cs).1, (r.step step.narrow phi.narrow key rival cs).2⟩ := by
  have hstep : ∀ rival, r.stepFeatures step.narrow phi.narrow key rival fs =
      ⟨.ok (), (r.step step.narrow phi.narrow key rival cs).1,
        (r.step step.narrow phi.narrow key rival cs).2⟩ := by
    intro rival
    unfold stepFeatures
    rw [Feature.coordinates_of_toCoordinates hcs]
  unfold update
  rw [hnull, htokens, hkey]
  cases rival with
  | none =>
    have hne : label.equals .null = false := by
      cases label <;> first | rfl | cases hnull
    simp only [rivalDatum, Option.map_none, Option.getD_none, hne, Bool.false_eq_true, if_false]
    exact hstep none
  | some k =>
    obtain ⟨hk, hne⟩ := hrival k rfl
    simp only [rivalDatum, Option.map_some, Option.getD_some, hk, hne, Bool.false_eq_true, if_false,
      Datum.toKey_eq_ok_iff.mpr rfl]
    exact hstep (some k)

end Registry

namespace Learner
variable {tokens label : Datum} {fs : List Feature} {cs : List Coordinate} {key : Key}

/-- The step size that an example asks for. -/
def stepSize (r : Registry) (phi : Double) (cs : List Coordinate) (label : Key) : Single :=
  (Step.size (r.margin true cs label).value (r.margin true cs label).variance phi.narrow).1

theorem readExample_eq_ok (hnull : label.isNull = false) (htokens : Feature.ofTokens tokens = .ok fs)
    (hkey : label.toKey = .ok key) (hcs : Feature.toCoordinates fs = .ok cs) :
    readExample tokens label = .ok (key, cs) := by
  unfold readExample
  rw [hnull, htokens, hkey]
  show (Feature.toCoordinates fs).bind (fun cs => .ok (key, cs)) = _
  rw [hcs]
  rfl

theorem rival_isNull_and_equals {r : Registry} (hkey : label.toKey = .ok key) :
    ∀ k, (r.margin true cs key).rival = some k →
      k.datum.isNull = false ∧ label.equals k.datum = false := by
  intro k hk
  obtain ⟨-, hnull, hne⟩ := Registry.exists_of_rival hk
  refine ⟨hnull, ?_⟩
  rw [Datum.equals_comm_of_immutable (Datum.mutablePart?_of_toKey hkey) k.immutable,
    ← Datum.toKey_eq_ok_iff.mp hkey]
  exact hne

theorem update_pair_eq_step (r : Registry) (phi : Double) (hnull : label.isNull = false)
    (hkey : label.toKey = .ok key) (hcs : Feature.toCoordinates fs = .ok cs) :
    r.update (.list (fs.map Feature.pair)) (stepSize r phi cs key).widen phi label
        (Registry.rivalDatum (r.margin true cs key).rival) =
      ⟨.ok (), (r.step (stepSize r phi cs key) phi.narrow key (r.margin true cs key).rival cs).1,
        (r.step (stepSize r phi cs key) phi.narrow key (r.margin true cs key).rival cs).2⟩ := by
  have hagain : Feature.ofTokens (.list (fs.map Feature.pair)) = .ok fs := Feature.ofTokenList_map_pair hcs
  have hnarrow : (stepSize r phi cs key).widen.narrow = stepSize r phi cs key :=
    Number.narrow_widen _
  rw [Registry.update_eq_step hnull hkey (rival_isNull_and_equals hkey) hagain hcs, hnarrow]

/-- A call that takes a step is an update by the features it has read. -/
theorem train_eq_update (r : Registry) (phi : Double) (hnull : label.isNull = false)
    (htokens : Feature.ofTokens tokens = .ok fs) (hkey : label.toKey = .ok key)
    (hcs : Feature.toCoordinates fs = .ok cs) (hpos : Number.less 0 (stepSize r phi cs key) = true) :
    ((confidenceWeighted phi).train r tokens label).result = .ok true ∧
      ((confidenceWeighted phi).train r tokens label).registry =
        (r.update (.list (fs.map Feature.pair)) (stepSize r phi cs key).widen phi label
          (Registry.rivalDatum (r.margin true cs key).rival)).registry := by
  rw [update_pair_eq_step r phi hnull hkey hcs]
  unfold train
  rw [readExample_eq_ok hnull htokens hkey hcs]
  unfold stepSize at hpos
  simp only [learn, hpos, if_true, stepSize, and_self]

theorem train_of_not_less (r : Registry) (phi : Double) (hread : readExample tokens label = .ok (key, cs))
    (hpos : Number.less 0 (stepSize r phi cs key) = false) :
    ((confidenceWeighted phi).train r tokens label).result = .ok false ∧
      ((confidenceWeighted phi).train r tokens label).registry = r := by
  unfold stepSize at hpos
  unfold train
  rw [hread]
  simp only [learn, hpos, Bool.false_eq_true, if_false, and_self]

theorem same_rival_eq_false {r : Registry} (hnan : label.isNaN = false) (hkey : label.toKey = .ok key) :
    ∀ rival, (r.margin true cs key).rival = some rival → key.same rival = false := by
  intro rival hrival
  have hlabel : key.datum = label := Datum.toKey_eq_ok_iff.mp hkey
  rw [Key.same_comm]
  exact Registry.rival_same_eq_false (hlabel ▸ hnan) hrival

theorem weight_train_of_less (r : Registry) (phi : Double) (hnull : label.isNull = false)
    (hnan : label.isNaN = false) (htokens : Feature.ofTokens tokens = .ok fs)
    (hkey : label.toKey = .ok key) (hcs : Feature.toCoordinates fs = .ok cs)
    (hpos : Number.less 0 (stepSize r phi cs key) = true) :
    ((confidenceWeighted phi).train r tokens label).result = .ok true ∧
      ∀ l k, ((confidenceWeighted phi).train r tokens label).registry.weight l k =
        match Registry.direction? key (r.margin true cs key).rival l with
        | none => r.weight l k
        | some toward => Step.applyAll toward (stepSize r phi cs key) phi.narrow
            (Coordinate.valuesAt cs k) (r.weight l k) := by
  obtain ⟨hresult, hregistry⟩ := train_eq_update r phi hnull htokens hkey hcs hpos
  refine ⟨hresult, fun l k => ?_⟩
  rw [hregistry, update_pair_eq_step r phi hnull hkey hcs]
  exact Registry.weight_step r (same_rival_eq_false hnan hkey) cs l k

/-- A call of a confidence-weighted learner, read at every label and every key. -/
theorem weight_train_confidenceWeighted (r : Registry) (phi : Double) (hnull : label.isNull = false)
    (hnan : label.isNaN = false) (htokens : Feature.ofTokens tokens = .ok fs)
    (hcs : Feature.toCoordinates fs = .ok cs) (hkey : label.toKey = .ok key) :
    ∃ margin size notices outcome, r.marginOf true fs label = .ok margin ∧
      Step.size margin.value margin.variance phi.narrow = (size, notices) ∧
      (confidenceWeighted phi).train r tokens label = outcome ∧
      (Number.less 0 size = true → outcome.result = .ok true ∧
        (∀ k, outcome.registry.weight key k =
          Step.applyAll true size phi.narrow (Coordinate.valuesAt cs k) (r.weight key k)) ∧
        (∀ rival, margin.rival = some rival → ∀ k, outcome.registry.weight rival k =
          Step.applyAll false size phi.narrow (Coordinate.valuesAt cs k) (r.weight rival k)) ∧
        (∀ l, key.same l = false → (∀ rival, margin.rival = some rival → rival.same l = false) →
          ∀ k, outcome.registry.weight l k = r.weight l k) ∧
        ∀ k, (∀ c ∈ cs, c.key.same k = false) → ∀ l, outcome.registry.weight l k = r.weight l k) ∧
      (Number.less 0 size = false → outcome.result = .ok false ∧ outcome.registry = r) := by
  refine ⟨_, stepSize r phi cs key, _, _, Registry.marginOf_eq_ok hkey hcs, rfl, rfl, fun hpos => ?_, fun hpos => ?_⟩
  · obtain ⟨result, hweight⟩ := weight_train_of_less r phi hnull hnan htokens hkey hcs hpos
    refine ⟨result, fun k => ?_, fun rival hrival k => ?_, fun l hl hl' k => ?_, fun k hk l => ?_⟩
    · rw [hweight, Registry.direction?_label]
    · rw [hweight, Registry.direction?_rival (same_rival_eq_false hnan hkey) hrival]
    · rw [hweight, Registry.direction?_other hl hl']
    · rw [hweight, Coordinate.valuesAt_eq_nil hk]
      cases Registry.direction? key (r.margin true cs key).rival l <;> rfl
  · exact train_of_not_less r phi (readExample_eq_ok hnull htokens hkey hcs) hpos

/-- A model that knows the label `b`, with a weight for the key one. -/
def rivalSample : Registry := Registry.empty.set (Key.ofText "b") ⟨.int 1, rfl⟩ ⟨1, 1⟩

/-- Tokens that give the key one twice, as an integer and as a truth value. -/
def tokensSample : List Datum := [.tuple [.int 1, .float 2 0], .text "g", .tuple [.bool true, .float 3 0]]

theorem weight_train_confidenceWeighted_sample :
    ∃ size : Single, Number.less 0 size = true ∧
      ((confidenceWeighted 1).train rivalSample (.list tokensSample) (.text "a")).result = .ok true ∧
      ((confidenceWeighted 1).train rivalSample (.list tokensSample) (.text "a")).registry.weight
          (Key.ofText "a") ⟨.int 1, rfl⟩ =
        Step.applyAll true size (Number.narrow 1) [2, 3] (rivalSample.weight (Key.ofText "a") ⟨.int 1, rfl⟩) ∧
      ((confidenceWeighted 1).train rivalSample (.list tokensSample) (.text "a")).registry.weight
          (Key.ofText "b") ⟨.int 1, rfl⟩ =
        Step.applyAll false size (Number.narrow 1) [2, 3] (rivalSample.weight (Key.ofText "b") ⟨.int 1, rfl⟩) := by
  have htokens : Feature.ofTokens (.list tokensSample) =
      .ok [⟨.int 1, 2⟩, ⟨.text "g", 1⟩, ⟨.bool true, 3⟩] := rfl
  have hcs : Feature.toCoordinates [⟨.int 1, 2⟩, ⟨.text "g", 1⟩, ⟨.bool true, 3⟩] =
      .ok [⟨⟨.int 1, rfl⟩, 2⟩, ⟨Key.ofText "g", 1⟩, ⟨⟨.bool true, rfl⟩, 3⟩] := rfl
  have hkey : (Datum.text "a").toKey = .ok (Key.ofText "a") := rfl
  obtain ⟨margin, size, notices, outcome, hmargin, hsize, rfl, hstep, -⟩ :=
    weight_train_confidenceWeighted rivalSample 1 rfl rfl htokens hcs hkey
  rw [Registry.marginOf_eq_ok hkey hcs] at hmargin
  obtain rfl := Except.ok.inj hmargin
  have hpos : Number.less 0 size = true := by
    rw [show size = (Step.size _ _ _).1 from (congrArg Prod.fst hsize).symm]
    decide +kernel
  obtain ⟨hresult, hlabel, hrival, -⟩ := hstep hpos
  exact ⟨size, hpos, hresult, hlabel _, hrival _ rfl _⟩

end Learner

end OnlineLearning
