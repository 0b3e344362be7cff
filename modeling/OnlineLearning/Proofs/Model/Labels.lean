import OnlineLearning.Learning.Margin
import OnlineLearning.Proofs.Model.Readings

/-!
# A model by its labels

Scoring goes through the entries of a model. Each of them is a known label with its own store, so a
scan is one over the labels, in the order in which they became known (`others_eq`, `predict_eq`), and
of a store it needs nothing but what can be read there.
-/

namespace OnlineLearning

namespace Datum

theorem toKey_eq_ok_iff {d : Datum} {k : Key} : d.toKey = .ok k ↔ k.datum = d := by
  obtain ⟨e, he⟩ := k
  unfold toKey
  split
  · rename_i hd
    simp only [Except.ok.injEq, Key.mk.injEq]
    exact eq_comm
  · rename_i kind hd
    simp only [reduceCtorEq, false_iff]
    rintro rfl
    rw [he] at hd
    cases hd

end Datum

namespace Ledger
variable {α : Type}

theorem contains_iff {t : Ledger α} {k : Key} : t.contains k = true ↔ ∃ l ∈ t.keys, l.same k = true := by
  unfold contains keys
  rw [List.any_eq_true]
  constructor
  · rintro ⟨e, he, hk⟩
    exact ⟨e.1, List.mem_map_of_mem he, hk⟩
  · rintro ⟨l, hl, hk⟩
    obtain ⟨e, he, rfl⟩ := List.mem_map.mp hl
    exact ⟨e, he, hk⟩

end Ledger

namespace Registry
variable {r : Registry} {withVariance : Bool} {cs : List Coordinate}

theorem contains_iff {label : Key} : r.contains label = true ↔ ∃ l ∈ r.labels, l.same label = true :=
  Ledger.contains_iff

theorem size_eq_length (r : Registry) : r.size = r.labels.length := Ledger.size_eq r.stores

theorem size_eq_zero_iff : r.size = 0 ↔ r.labels = [] := by
  rw [size_eq_length, List.length_eq_zero_iff]

theorem size_ne_zero_of_mem {label : Key} (h : label ∈ r.labels) : r.size ≠ 0 :=
  mt size_eq_zero_iff.mp (List.ne_nil_of_mem h)

theorem storeOf_of_not_contains {label : Key} (h : r.contains label = false) : r.storeOf label = {} := by
  rw [storeOf, get?, Ledger.get?_eq_none_iff.mpr h, Option.getD_none]

/-- A label with the score and the variance of an example under it. -/
def contender (r : Registry) (withVariance : Bool) (cs : List Coordinate) (label : Key) : Contender :=
  ⟨label, (measure withVariance (r.storeOf label) cs).1, (measure withVariance (r.storeOf label) cs).2⟩

theorem measure_fst (withVariance : Bool) (s : Store) (cs : List Coordinate) :
    (measure withVariance s cs).1 = s.score cs := by
  cases withVariance
  · rfl
  · exact congrArg Prod.fst (s.scoreAndVariance_eq cs)

theorem contender_score (r : Registry) (withVariance : Bool) (cs : List Coordinate) (label : Key) :
    (r.contender withVariance cs label).score = (r.storeOf label).score cs :=
  measure_fst withVariance (r.storeOf label) cs

theorem contender_variance (r : Registry) (cs : List Coordinate) (label : Key) :
    (r.contender true cs label).variance = (r.storeOf label).variance cs :=
  congrArg Prod.snd ((r.storeOf label).scoreAndVariance_eq cs)

theorem storeOf_of_mem {e : Key × Store} (h : e ∈ r.stores.entries) : r.storeOf e.1 = e.2 := by
  have hget : r.stores.get? e.1 = some e.2 := Ledger.get?_of_mem h
  rw [storeOf, get?, hget, Option.getD_some]

theorem entries_eq_map (r : Registry) : r.stores.entries = r.labels.map fun l => (l, r.storeOf l) := by
  rw [labels, Ledger.keys, List.map_map]
  refine (List.map_id _).symm.trans (List.map_congr_left fun e he => ?_)
  exact Prod.ext rfl (storeOf_of_mem he).symm

theorem create_of_contains {label : Key} (h : r.contains label = true) : r.create label = r := by
  have hstores : r.stores.insertNew label {} = r.stores := if_pos h
  rw [create, hstores]

theorem storeOf_set (r : Registry) (label key l : Key) (w : Weight) :
    (r.set label key w).storeOf l = if label.same l then (r.storeOf label).set key w else r.storeOf l :=
  storeOf_setStore r label l _

theorem others_eq (r : Registry) (withVariance : Bool) (cs : List Coordinate) (label : Key) :
    r.others withVariance cs label =
      (r.labels.filter fun l => !l.datum.equals label.datum).map (r.contender withVariance cs) := by
  rw [others, labels, Ledger.keys, List.filter_map, List.map_map]
  refine List.map_congr_left fun e he => ?_
  have hstore := storeOf_of_mem (List.mem_filter.mp he).1
  show (⟨e.1, (measure withVariance e.2 cs).1, (measure withVariance e.2 cs).2⟩ : Contender) =
    r.contender withVariance cs e.1
  rw [contender, hstore]

theorem mem_others_iff {label : Key} {c : Contender} : c ∈ r.others withVariance cs label ↔
    ∃ l ∈ r.labels, l.datum.equals label.datum = false ∧ r.contender withVariance cs l = c := by
  rw [others_eq, List.mem_map]
  refine exists_congr fun l => ?_
  rw [List.mem_filter, Bool.not_eq_true', and_assoc]

theorem predict_eq (r : Registry) (cs : List Coordinate) :
    r.predict cs = (Contender.leader? (r.labels.map (r.contender false cs))).bind Contender.label? := by
  rw [predict, labels, Ledger.keys, List.map_map]
  refine congrArg (fun scan => (Contender.leader? scan).bind Contender.label?) ?_
  refine List.map_congr_left fun e he => ?_
  show (⟨e.1, e.2.score cs, 0⟩ : Contender) = r.contender false cs e.1
  rw [contender, storeOf_of_mem he]
  rfl

theorem predictFeatures_eq_ok {fs : List Feature} (hcs : Feature.toCoordinates fs = .ok cs) :
    r.predictFeatures fs = .ok (r.predict cs) := by
  unfold predictFeatures
  split
  · rename_i hsize
    rw [predict_eq, size_eq_zero_iff.mp hsize]
    rfl
  · rw [hcs]
    rfl

end Registry

end OnlineLearning
