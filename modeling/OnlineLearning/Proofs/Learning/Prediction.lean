import OnlineLearning.Proofs.Learning.Mistakes
import OnlineLearning.Proofs.Learning.Scan
import OnlineLearning.Proofs.Learning.Training

/-!
# A prediction and the rival of a label

A prediction and a margin look at the same field of labels. If the field has a leader other than the
label of the example, then that leader is the rival, and a label with a store of its own has no margin above
zero against it; a label with a margin above zero leads the field itself (`rival_eq_predicted`).
-/

namespace OnlineLearning

namespace Registry
variable {r : Registry} {withVariance : Bool} {fs : List Feature} {cs : List Coordinate} {key : Key} {label : Datum}

theorem defined_field (h : ∀ l ∈ r.labels, (r.storeOf l).score cs ≠ .nan) : Contender.Defined (r.field cs) := by
  intro c hc
  obtain ⟨l, hl, rfl⟩ := List.mem_map.mp hc
  exact h l hl

theorem margin_of_labels_eq_nil (h : r.labels = []) : (r.margin withVariance cs key).rival = none := by
  rw [margin_of_size_eq_zero (size_eq_zero_iff.mpr h)]

/-- The leader of the field is the rival of every label that it does not equal. -/
theorem rival_of_leader {leader : Contender} (hnamed : r.Named) (hdefined : Contender.Defined (r.field cs))
    (hleader : Contender.leader? (r.field cs) = some leader)
    (hne : leader.label.datum.equals key.datum = false) :
    (r.margin withVariance cs key).rival = some leader.label ∧
      (r.contains key = true → Number.less 0 (r.margin withVariance cs key).value = false) := by
  have hmem := Contender.leader?_mem hleader
  have hothers : Contender.leader? (r.others false cs key) = some leader := by
    rw [others_eq_filter]
    exact Contender.leader?_filter (hnamed.field cs) hdefined hleader (by rw [hne]; rfl)
  have hsize : r.size ≠ 0 := by
    obtain ⟨l, hl, -⟩ := List.mem_map.mp hmem
    exact size_ne_zero_of_mem hl
  obtain ⟨hvalue, hrival⟩ := margin_eq_plain r withVariance cs key
  rw [hvalue, hrival, margin_of_leader hsize hothers]
  refine ⟨Contender.label?_eq_some_iff.mpr ⟨rfl, hnamed.field cs leader hmem⟩, fun hknown => ?_⟩
  obtain ⟨own, hown, hscore⟩ := exists_mem_field cs hknown
  show Number.less 0 ((r.storeOf key).score cs - leader.score) = false
  rw [Number.less_zero_sub, ← hscore]
  exact Contender.not_less_leader? (hnamed.field cs) hleader own hown

/-- With all scores defined, a prediction that is not the label is its rival; a known label without a margin
above zero is not above it, and one with such a margin is predicted. -/
theorem rival_eq_predicted (withVariance : Bool) (hcs : Feature.toCoordinates fs = .ok cs)
    (hkey : label.toKey = .ok key) (hnamed : r.Named)
    (hdefined : ∀ l ∈ r.labels, (r.storeOf l).score cs ≠ .nan) :
    ∃ margin predicted, r.marginOf withVariance fs label = .ok margin ∧ r.predictFeatures fs = .ok predicted ∧
      ((predicted.any fun p => p.datum.equals label) = false →
        margin.rival = predicted ∧ (r.contains key = true → Number.less 0 margin.value = false)) ∧
      (r.contains key = true → Number.less 0 margin.value = true →
        (predicted.any fun p => p.datum.equals label) = true) := by
  obtain rfl := Datum.toKey_eq_ok_iff.mp hkey
  refine ⟨r.margin withVariance cs key, r.predict cs, marginOf_eq_ok hkey hcs, predictFeatures_eq_ok hcs, ?_, ?_⟩
  · intro hne
    cases hfield : r.field cs with
    | nil =>
      have hlabels : r.labels = [] := List.map_eq_nil_iff.mp hfield
      rw [predict_eq, margin_of_labels_eq_nil hlabels, hlabels]
      refine ⟨rfl, fun hknown => ?_⟩
      obtain ⟨l, hl, -⟩ := contains_iff.mp hknown
      rw [hlabels] at hl
      cases hl
    | cons first field =>
      obtain ⟨leader, hleader⟩ := Contender.exists_leader?_cons first field
      rw [← hfield] at hleader
      have hpredict : r.predict cs = some leader.label := (predict_eq_some_iff hnamed).mpr ⟨leader, hleader, rfl⟩
      rw [hpredict] at hne ⊢
      exact rival_of_leader hnamed (defined_field hdefined) hleader hne
  · intro hknown hpos
    rw [(margin_eq_plain r withVariance cs key).1] at hpos
    obtain ⟨p, hp, hequals⟩ := predicts_of_margin_pos hnamed hknown hpos
    rw [hp]
    exact hequals

/-- Three labels, the last two of which score alike on the feature `g`. -/
def tieSample : Registry :=
  ((Registry.empty.set (Key.ofText "A") (Key.ofText "g") ⟨1, 1⟩).set (Key.ofText "B") (Key.ofText "g") ⟨3, 1⟩).set
    (Key.ofText "C") (Key.ofText "g") ⟨3, 1⟩

theorem rival_eq_predicted_tieSample :
    ∃ margin predicted, tieSample.marginOf true [⟨.text "g", 1⟩] (.text "C") = .ok margin ∧
      tieSample.predictFeatures [⟨.text "g", 1⟩] = .ok predicted ∧
      (predicted.any fun p => p.datum.equals (.text "B")) = true ∧
      margin.rival = predicted ∧ Number.less 0 margin.value = false := by
  have hcs : Feature.toCoordinates [⟨.text "g", 1⟩] = .ok [⟨Key.ofText "g", 1⟩] := rfl
  have hkey : (Datum.text "C").toKey = .ok (Key.ofText "C") := rfl
  have hnamed : tieSample.Named := by unfold Named; decide +kernel
  have hdefined : ∀ l ∈ tieSample.labels, (tieSample.storeOf l).score [⟨Key.ofText "g", 1⟩] ≠ .nan := by
    decide +kernel
  have hpredicted : ((tieSample.predict [⟨Key.ofText "g", 1⟩]).any fun p => p.datum.equals (.text "B")) = true := by
    decide +kernel
  have hother : ((tieSample.predict [⟨Key.ofText "g", 1⟩]).any fun p => p.datum.equals (.text "C")) = false := by
    decide +kernel
  have hknown : tieSample.contains (Key.ofText "C") = true := by decide +kernel
  obtain ⟨margin, predicted, hmargin, hpredict, hne, -⟩ := rival_eq_predicted true hcs hkey hnamed hdefined
  have heq : tieSample.predict [⟨Key.ofText "g", 1⟩] = predicted :=
    Except.ok.inj ((predictFeatures_eq_ok hcs).symm.trans hpredict)
  rw [heq] at hpredicted hother
  obtain ⟨hrival, hvalue⟩ := hne hother
  exact ⟨margin, predicted, hmargin, hpredict, hpredicted, hrival, hvalue hknown⟩

end Registry

end OnlineLearning
