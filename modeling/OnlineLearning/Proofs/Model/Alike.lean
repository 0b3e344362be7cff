import OnlineLearning.Proofs.Model.Labels

/-!
# Models that read alike

Two models are alike if they know the same labels in the same order and read the same weight
everywhere. Which of the weights they store, and in what order, may differ: a stored default is one
thing and no entry another, but both read the same. Every way of reading gives one result on both
models, and they are still alike after the same write.
-/

namespace OnlineLearning

namespace Store
variable {s t : Store}

theorem score_congr (h : ∀ k, s.get k = t.get k) (cs : List Coordinate) : s.score cs = t.score cs := by
  unfold score
  simp only [h]

theorem scoreAndVariance_congr (h : ∀ k, s.get k = t.get k) (cs : List Coordinate) :
    s.scoreAndVariance cs = t.scoreAndVariance cs := by
  unfold scoreAndVariance
  simp only [h]

end Store

namespace Registry

/-- The same labels in the same order, and the same weight everywhere. -/
structure Alike (r s : Registry) : Prop where
  labels : r.labels = s.labels
  weight : ∀ label key, r.weight label key = s.weight label key

namespace Alike
variable {r s : Registry} (h : r.Alike s)
include h

/-! ### Reading -/

theorem measure (withVariance : Bool) (label : Key) (cs : List Coordinate) :
    Registry.measure withVariance (r.storeOf label) cs = Registry.measure withVariance (s.storeOf label) cs := by
  unfold Registry.measure
  rw [Store.scoreAndVariance_congr (h.weight label), Store.score_congr (h.weight label)]

theorem contains (label : Key) : r.contains label = s.contains label := by
  rw [Bool.eq_iff_iff, contains_iff, contains_iff, h.labels]

theorem size : r.size = s.size := by
  rw [size_eq_length, size_eq_length, h.labels]

theorem contender (withVariance : Bool) (cs : List Coordinate) :
    r.contender withVariance cs = s.contender withVariance cs := by
  funext label
  unfold Registry.contender
  rw [h.measure]

theorem margin (withVariance : Bool) (cs : List Coordinate) (label : Key) :
    r.margin withVariance cs label = s.margin withVariance cs label := by
  have hothers : r.others withVariance cs label = s.others withVariance cs label := by
    rw [others_eq, others_eq, h.labels, h.contender]
  unfold Registry.margin
  rw [h.measure, h.size, hothers]

theorem predict (cs : List Coordinate) : r.predict cs = s.predict cs := by
  rw [predict_eq, predict_eq, h.labels, h.contender]

theorem marginOf (withVariance : Bool) (fs : List Feature) (label : Datum) :
    r.marginOf withVariance fs label = s.marginOf withVariance fs label := by
  unfold Registry.marginOf
  simp only [h.margin]

theorem predictFeatures (fs : List Feature) : r.predictFeatures fs = s.predictFeatures fs := by
  have hpredict : r.predict = s.predict := funext h.predict
  unfold Registry.predictFeatures
  rw [h.size, hpredict]

theorem weightOf (label key : Datum) : r.weightOf label key = s.weightOf label key := by
  unfold Registry.weightOf
  simp only [h.contains, h.weight]

/-! ### Writing -/

theorem create (label : Key) : (r.create label).Alike (s.create label) := by
  constructor
  · rw [labels_create, labels_create, h.contains, h.labels]
  · intro l k
    rw [weight_create, weight_create, h.weight]

theorem set (label key : Key) (w : Weight) : (r.set label key w).Alike (s.set label key w) := by
  constructor
  · rw [labels_set, labels_set, h.contains, h.labels]
  · intro l k
    rw [weight_set, weight_set, h.weight]

end Alike

theorem weight_of_not_contains {r : Registry} {label : Key} (h : r.contains label = false) (key : Key) :
    r.weight label key = Weight.unseen := by
  rw [weight, storeOf_of_not_contains h]
  rfl

theorem weightOf_datum (r : Registry) (label key : Key) :
    r.weightOf label.datum key.datum = .ok (r.weight label key) := by
  have hlabel : label.datum.toKey = .ok label := Datum.toKey_eq_ok_iff.mpr rfl
  have hkey : key.datum.toKey = .ok key := Datum.toKey_eq_ok_iff.mpr rfl
  unfold weightOf
  rw [hlabel]
  show (if r.contains label then _ else _ : Except Fault Weight) = _
  cases hknown : r.contains label with
  | true =>
    rw [if_pos rfl, hkey]
    rfl
  | false =>
    rw [weight_of_not_contains hknown]
    rfl

/-- It is enough to ask for the weights, one label and one key at a time. -/
theorem alike_iff {r s : Registry} :
    r.Alike s ↔ r.labels = s.labels ∧ ∀ label key : Datum, r.weightOf label key = s.weightOf label key := by
  constructor
  · exact fun h => ⟨h.labels, h.weightOf⟩
  · rintro ⟨hlabels, hweight⟩
    refine ⟨hlabels, fun label key => ?_⟩
    have hread := hweight label.datum key.datum
    rw [weightOf_datum, weightOf_datum] at hread
    exact Except.ok.inj hread

end Registry

end OnlineLearning
