import OnlineLearning.Proofs.Binary.Magnitude
import OnlineLearning.Proofs.Learning.Leader
import OnlineLearning.Proofs.Learning.Writes

/-!
# Mistakes that a perceptron learns from

A perceptron looks at the margin and not at the prediction. For a known label the two agree: with a
margin above zero it is the label that is predicted. A label that is not known has the score zero but
is never predicted, so where all known labels score below zero its margin is above zero, and the
mistake is overlooked. There is no other mistake without a change (`changed_of_mistake`).
-/

namespace OnlineLearning

namespace Store

theorem foldl_score_of_nan (s : Store) (cs : List Coordinate) :
    cs.foldl (fun sum c => sum + (s.get c.key).mean.narrow * c.value.narrow) .nan = .nan := by
  induction cs with
  | nil => rfl
  | cons c cs ih => rw [List.foldl_cons, Number.nan_add, ih]

theorem score_unseen (cs : List Coordinate) :
    ({} : Store).score cs = if cs.all fun c => c.value.narrow.isFinite then 0 else .nan := by
  unfold score
  induction cs with
  | nil => rfl
  | cons c cs ih =>
    have hmean : Weight.unseen.mean.narrow = 0 := by decide +kernel
    have hget : (({} : Store).get c.key).mean.narrow = 0 := hmean
    rw [List.foldl_cons, hget, Number.zero_add_zero_mul, List.all_cons]
    cases hc : c.value.narrow.isFinite with
    | true => exact ih
    | false => exact foldl_score_of_nan _ cs

end Store

namespace Registry
variable {r : Registry} {cs : List Coordinate} {label : Key}

theorem named_empty : Registry.empty.Named := fun _ hl => absurd hl List.not_mem_nil

theorem Named.afterAll (h : r.Named) (calls : List Call) : (r.afterAll calls).Named := by
  have hwrite : ∀ (r : Registry) (l : Key), l.datum.isNull = false → r.Named →
      ∀ k ∈ if r.contains l then r.labels else r.labels ++ [l], k.datum.isNull = false := by
    intro r l hl hr k hk
    split at hk
    · exact hr k hk
    · rcases List.mem_append.mp hk with hk | hk
      · exact hr k hk
      · rwa [List.mem_singleton.mp hk]
  refine afterAll_induction named_empty h (fun r l hl hr => ?_) fun _ _ _ _ r l k w hl _ hr => ?_
  · rw [Named, labels_create]
    exact hwrite r l hl hr
  · rw [Named, labels_set]
    exact hwrite r l hl hr

/-- Whether a label is not known, and all its score of zero would have to beat is below zero. -/
def overlooks (r : Registry) (cs : List Coordinate) (label : Key) : Bool :=
  !r.contains label && (cs.all fun c => c.value.narrow.isFinite) &&
    (r.predict cs).any fun p => ((r.storeOf p).score cs).less 0

theorem equals_eq_false_of_not_contains (h : r.contains label = false) {l : Key} (hl : l ∈ r.labels) :
    l.datum.equals label.datum = false := by
  refine Bool.eq_false_iff.mpr fun heq => ?_
  have hsame : l.same label = true := by
    unfold Datum.equals at heq
    split at heq
    · rename_i x m y n hx hy
      unfold Key.same
      rw [hx, hy]
      simp [Datum.agrees, Datum.agreesPlainly, Datum.quantity?, Datum.Quantity.agrees, heq]
    · exact heq
  rw [contains_iff.mpr ⟨l, hl, hsame⟩] at h
  cases h

theorem others_of_not_contains (h : r.contains label = false) : r.others false cs label = r.field cs := by
  rw [others_eq_filter, List.filter_eq_self]
  intro c hc
  obtain ⟨l, hl, rfl⟩ := List.mem_map.mp hc
  show (!l.datum.equals label.datum) = true
  rw [equals_eq_false_of_not_contains h hl]
  rfl

theorem less_score_unseen (x : Single) : x.less (({} : Store).score cs) =
    ((cs.all fun c => c.value.narrow.isFinite) && x.less 0) := by
  rw [Store.score_unseen]
  cases cs.all fun c => c.value.narrow.isFinite with
  | true => rfl
  | false => cases x <;> rfl

theorem less_zero_margin_of_not_contains (hnamed : r.Named) (h : r.contains label = false) :
    Number.less 0 (r.margin false cs label).value = r.overlooks cs label := by
  unfold overlooks
  rw [h]
  by_cases hlabels : r.labels = []
  · have hpredict : r.predict cs = none := by rw [predict_eq, hlabels]; rfl
    have hvalue : (r.margin false cs label).value = ({} : Store).score cs := by
      rw [margin_of_size_eq_zero (size_eq_zero_iff.mpr hlabels), contender, storeOf_of_not_contains h]
      rfl
    rw [hvalue, less_score_unseen, Number.less_irrefl, hpredict, Bool.and_false]
    exact (Bool.and_false _).symm
  · obtain ⟨leader, hleader, hpredict⟩ := exists_predicted hnamed cs hlabels
    have hvalue : (r.margin false cs label).value = ({} : Store).score cs - leader.score := by
      rw [← others_of_not_contains h] at hleader
      rw [margin_of_leader (mt size_eq_zero_iff.mp hlabels) hleader, contender, storeOf_of_not_contains h]
      rfl
    rw [hvalue, Number.less_zero_sub, less_score_unseen, hpredict, score_of_mem_field (Contender.leader?_mem hleader)]
    rfl

end Registry

namespace Learner
variable {r : Registry} {tokens label : Datum} {key : Key} {cs : List Coordinate}

theorem learn_perceptron_fst (r : Registry) (cs : List Coordinate) (label : Key) :
    (perceptron.learn r cs label).1 = !Number.less 0 (r.margin false cs label).value := by
  simp only [learn]
  cases Number.less 0 (r.margin false cs label).value <;> rfl

/-- A label that is not predicted is learned, unless it is overlooked. -/
theorem changed_of_mistake (hnamed : r.Named) {key : Key}
    (hmistake : ((r.predict cs).any fun p => p.datum.equals key.datum) = false) :
    (perceptron.learn r cs key).1 = !r.overlooks cs key := by
  rw [learn_perceptron_fst]
  cases hknown : r.contains key with
  | false => rw [Registry.less_zero_margin_of_not_contains hnamed hknown]
  | true =>
    have hoverlooks : r.overlooks cs key = false := by rw [Registry.overlooks, hknown]; rfl
    have hpos : Number.less 0 (r.margin false cs key).value = false := by
      refine Bool.eq_false_iff.mpr fun hpos => ?_
      obtain ⟨p, hp, hequals⟩ := Registry.predicts_of_margin_pos hnamed hknown hpos
      rw [hp] at hmistake
      exact Bool.eq_false_iff.mp hmistake hequals
    rw [hoverlooks, hpos]

theorem predictTokens_of_readExample (h : readExample tokens label = .ok (key, cs)) (r : Registry) :
    r.predictTokens tokens = .ok (r.predict cs) := by
  obtain ⟨-, -, fs, hfs, hcs⟩ := exists_of_readExample h
  rw [Registry.predictTokens, hfs]
  exact Registry.predictFeatures_eq_ok hcs

end Learner

end OnlineLearning
