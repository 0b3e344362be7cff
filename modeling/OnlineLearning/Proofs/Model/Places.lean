import OnlineLearning.Proofs.Model.Keys

/-!
# The places of a model

A stored weight has a place: a label, and one of the keys of this label. The rows of a model are its
weights at all places, by label and then by key (`rows_eq`), and no two places have the same label and
the same key (`distinct_places`).
-/

namespace OnlineLearning

theorem Store.entries_eq (s : Store) : s.weights.entries = s.weights.keys.map fun k => (k, s.get k) := by
  rw [Ledger.keys, List.map_map]
  refine (List.map_id _).symm.trans (List.map_congr_left fun e he => ?_)
  have hget : s.weights.get? e.1 = some e.2 := Ledger.get?_of_mem he
  refine Prod.ext rfl ?_
  show e.2 = (s.weights.get? e.1).getD s.default
  rw [hget, Option.getD_some]

namespace Registry

/-- The label and the key of every stored weight, in order of insertion. -/
def places (r : Registry) : List (Key × Key) := r.labels.flatMap fun l => (r.keysOf l).map fun k => (l, k)

/-- The row of the weight at a place. -/
def rowAt (r : Registry) (p : Key × Key) : Row := ⟨p.1.datum, p.2.datum, r.weight p.1 p.2⟩

theorem rows_eq (r : Registry) : r.rows = r.places.map r.rowAt := by
  rw [rows, entries_eq_map, places, List.flatMap_map, List.map_flatMap]
  refine congrArg (List.flatMap · r.labels) (funext fun l => ?_)
  show ((r.storeOf l).weights.entries.map fun e => (⟨l.datum, e.1.datum, e.2⟩ : Row)) = _
  rw [Store.entries_eq, List.map_map, List.map_map]
  rfl

theorem mem_places {r : Registry} {p : Key × Key} (h : p ∈ r.places) : p.1 ∈ r.labels ∧ p.2 ∈ r.keysOf p.1 := by
  obtain ⟨l, hl, hp⟩ := List.mem_flatMap.mp h
  obtain ⟨k, hk, rfl⟩ := List.mem_map.mp hp
  exact ⟨hl, hk⟩

theorem distinct_places (r : Registry) :
    r.places.Pairwise fun p q => p.1.same q.1 = false ∨ p.2.same q.2 = false := by
  refine List.pairwise_flatMap.mpr ⟨fun l _ => ?_, ?_⟩
  · rw [List.pairwise_map]
    exact (r.storeOf l).weights.distinct_keys.imp .inr
  · refine r.stores.distinct_keys.imp fun {a b} hab p hp q hq => .inl ?_
    obtain ⟨k, -, rfl⟩ := List.mem_map.mp hp
    obtain ⟨k', -, rfl⟩ := List.mem_map.mp hq
    exact hab

end Registry

end OnlineLearning
