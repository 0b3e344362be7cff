import OnlineLearning.Proofs.Learning.Direction
import OnlineLearning.Proofs.Learning.Mistakes

/-!
# What one call of a perceptron does

A call that finds no margin above zero adds the values of the example to the means of its label and subtracts
them from those of its rival, key by key and in their order; a covariance is written back as it was read, also
one that some other learner has left there. A call that finds such a margin writes nothing
(`weight_train_perceptron`).
-/

namespace OnlineLearning

namespace Learner
variable {r : Registry} {tokens label : Datum} {fs : List Feature} {cs : List Coordinate} {key : Key}

/-- A mean after values were added to it, or subtracted from it, one after another. -/
def meanAfter (toward : Bool) (xs : List Double) (mean : Double) : Double :=
  xs.foldl (fun mean x => (if toward then mean.narrow + x.narrow else mean.narrow - x.narrow).widen) mean

/-- Shifts along values are shifts of the mean alone. -/
theorem foldl_shift (toward : Bool) (xs : List Double) (w : Weight) :
    xs.foldl (fun w x => shift toward x.narrow w) w = ⟨meanAfter toward xs w.mean, w.covariance⟩ := by
  induction xs generalizing w with
  | nil => rfl
  | cons x xs ih =>
    rw [List.foldl_cons, ih]
    rfl

theorem weight_learn_perceptron (h : (perceptron.learn r cs key).1 = true)
    (hrival : ∀ l, (r.margin false cs key).rival = some l → key.same l = false) (l k : Key) :
    (perceptron.learn r cs key).2.1.weight l k =
      match Registry.direction? key (r.margin false cs key).rival l with
      | none => r.weight l k
      | some toward =>
        ⟨meanAfter toward (Coordinate.valuesAt cs k) (r.weight l k).mean, (r.weight l k).covariance⟩ := by
  have hweight := weight_learn h hrival l k
  simp only [rewrite, foldl_shift] at hweight
  exact hweight

theorem registry_learn_perceptron (h : (perceptron.learn r cs key).1 = false) :
    (perceptron.learn r cs key).2.1 = r := by
  simp only [learn] at h ⊢
  split at h
  · rename_i hpos
    rw [if_pos hpos]
  · cases h

/-- A call of a perceptron, read at every label and every key. -/
theorem weight_train_perceptron (r : Registry) (hnull : label.isNull = false) (hnan : label.isNaN = false)
    (htokens : Feature.ofTokens tokens = .ok fs) (hcs : Feature.toCoordinates fs = .ok cs)
    (hkey : label.toKey = .ok key) :
    ∃ margin outcome, r.marginOf false fs label = .ok margin ∧ perceptron.train r tokens label = outcome ∧
      (Number.less 0 margin.value = false → outcome.result = .ok true ∧
        (∀ k, (outcome.registry.weight key k).mean =
          meanAfter true (Coordinate.valuesAt cs k) (r.weight key k).mean) ∧
        (∀ rival, margin.rival = some rival → ∀ k, (outcome.registry.weight rival k).mean =
          meanAfter false (Coordinate.valuesAt cs k) (r.weight rival k).mean) ∧
        (∀ l, key.same l = false → (∀ rival, margin.rival = some rival → rival.same l = false) →
          ∀ k, outcome.registry.weight l k = r.weight l k) ∧
        ∀ l k, (outcome.registry.weight l k).covariance = (r.weight l k).covariance) ∧
      (Number.less 0 margin.value = true → outcome.result = .ok false ∧ outcome.registry = r) := by
  have hread := readExample_eq_ok hnull htokens hkey hcs
  obtain rfl := Datum.toKey_eq_ok_iff.mp hkey
  refine ⟨_, _, Registry.marginOf_eq_ok hkey hcs, rfl, fun hpos => ?_, fun hpos => ?_⟩
  · have hlearn : (perceptron.learn r cs key).1 = true := by rw [learn_perceptron_fst, hpos]; rfl
    -- the rival has a store of its own, so the shifts toward the label and away from the rival never meet
    have hrival : ∀ l, (r.margin false cs key).rival = some l → key.same l = false := fun l hl => by
      rw [Key.same_comm]
      exact Registry.rival_same_eq_false hnan hl
    have hweight := weight_learn_perceptron hlearn hrival
    rw [result_train perceptron hread, registry_train perceptron hread, hlearn]
    refine ⟨rfl, fun k => ?_, fun rival hr k => ?_, fun l hl hother k => ?_, fun l k => ?_⟩
    · rw [hweight, Registry.direction?_label]
    · rw [hweight, Registry.direction?_rival hrival hr]
    · rw [hweight, Registry.direction?_other hl hother]
    · rw [hweight]
      cases Registry.direction? key (r.margin false cs key).rival l <;> rfl
  · have hlearn : (perceptron.learn r cs key).1 = false := by rw [learn_perceptron_fst, hpos]; rfl
    rw [result_train perceptron hread, registry_train perceptron hread, hlearn]
    exact ⟨rfl, registry_learn_perceptron hlearn⟩

/-- A model that a confidence-weighted learner has taught two labels. -/
def taughtSample : Registry :=
  ((confidenceWeighted 1).train rivalSample (.list tokensSample) (.text "a")).registry

theorem weight_train_perceptron_taughtSample :
    let one : Key := ⟨.int 1, rfl⟩
    let outcome := perceptron.train taughtSample (.list tokensSample) (.text "b")
    outcome.result = .ok true ∧
      (outcome.registry.weight (Key.ofText "b") one).mean =
        meanAfter true [2, 3] (taughtSample.weight (Key.ofText "b") one).mean ∧
      (outcome.registry.weight (Key.ofText "a") one).mean =
        meanAfter false [2, 3] (taughtSample.weight (Key.ofText "a") one).mean ∧
      (outcome.registry.weight (Key.ofText "a") one).covariance =
        (taughtSample.weight (Key.ofText "a") one).covariance ∧
      (taughtSample.weight (Key.ofText "a") one).covariance ≠ 1 := by
  have htokens : Feature.ofTokens (.list tokensSample) =
      .ok [⟨.int 1, 2⟩, ⟨.text "g", 1⟩, ⟨.bool true, 3⟩] := rfl
  have hcs : Feature.toCoordinates [⟨.int 1, 2⟩, ⟨.text "g", 1⟩, ⟨.bool true, 3⟩] =
      .ok [⟨⟨.int 1, rfl⟩, 2⟩, ⟨Key.ofText "g", 1⟩, ⟨⟨.bool true, rfl⟩, 3⟩] := rfl
  have hkey : (Datum.text "b").toKey = .ok (Key.ofText "b") := rfl
  obtain ⟨margin, outcome, hmargin, rfl, hshift, -⟩ :=
    weight_train_perceptron taughtSample rfl rfl htokens hcs hkey
  obtain rfl := Except.ok.inj ((Registry.marginOf_eq_ok hkey hcs).symm.trans hmargin)
  obtain ⟨hresult, hlabel, hrival, -, hcovariance⟩ := hshift (by decide +kernel)
  have hknown : ((taughtSample.margin false [⟨⟨.int 1, rfl⟩, 2⟩, ⟨Key.ofText "g", 1⟩, ⟨⟨.bool true, rfl⟩, 3⟩]
      (Key.ofText "b")).rival.any fun l => l.same (Key.ofText "a")) = true := by decide +kernel
  obtain ⟨rival, hr, hsame⟩ := (Option.any_eq_true _ _).mp hknown
  have hmean := hrival rival hr ⟨.int 1, rfl⟩
  rw [Registry.weight_congr _ hsame (Key.same_self _), Registry.weight_congr _ hsame (Key.same_self _)] at hmean
  exact ⟨hresult, hlabel _, hmean, hcovariance _ _, by decide +kernel⟩

end Learner

end OnlineLearning
