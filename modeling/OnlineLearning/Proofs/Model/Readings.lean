import Mathlib.Data.List.Basic
import OnlineLearning.Model.Registry

/-! # What a model reads

A property of all weights that a model can read, stored or not, passes through every way of writing
to it (`Registry.Everywhere`). The rows of a model are among its readings: `weight_of_mem_rows`. -/

namespace OnlineLearning

namespace Ledger
variable {α : Type} {t : Ledger α} {k : Key} {v : α}

theorem find?_of_mem {es : List (Key × α)} (hd : es.Pairwise fun a b => a.1.same b.1 = false)
    (h : (k, v) ∈ es) : (es.find? fun e => e.1.same k) = some (k, v) := by
  induction es with
  | nil => simp at h
  | cons e es ih =>
    obtain ⟨hhead, htail⟩ := List.pairwise_cons.mp hd
    rcases List.mem_cons.mp h with rfl | h
    · rw [List.find?_cons, Key.same_self]
    · have hne : e.1.same k = false := hhead (k, v) h
      rw [List.find?_cons, hne]
      exact ih htail h

theorem get?_of_mem (h : (k, v) ∈ t.entries) : t.get? k = some v := by
  rw [get?, find?_of_mem t.distinct h]
  rfl

end Ledger

namespace Store

/-- The sum of the squared coordinates times their covariances. -/
def variance (s : Store) (cs : List Coordinate) : Single :=
  cs.foldl (fun sum c => sum + (s.get c.key).covariance.narrow * c.value.narrow * c.value.narrow) 0

theorem scoreAndVariance_eq (s : Store) (cs : List Coordinate) : s.scoreAndVariance cs = (s.score cs, s.variance cs) :=
  List.foldl_hom₂ cs Prod.mk _ _ _ 0 0 fun _ _ _ => rfl

end Store

namespace Registry
variable {P : Weight → Prop} {r : Registry} {row : Row}

theorem weight_congr (r : Registry) {l l' k k' : Key} (hl : l.same l' = true) (hk : k.same k' = true) :
    r.weight l k = r.weight l' k' := by
  rw [weight, weight, storeOf_congr r hl, Store.get_congr _ hk]

theorem weight_of_mem_rows (h : row ∈ r.rows) :
    ∃ label key : Key, row = ⟨label.datum, key.datum, r.weight label key⟩ := by
  obtain ⟨⟨label, store⟩, hs, hrow⟩ := List.mem_flatMap.mp h
  obtain ⟨⟨key, w⟩, hw, rfl⟩ := List.mem_map.mp hrow
  refine ⟨label, key, ?_⟩
  rw [weight, storeOf, get?, Ledger.get?_of_mem hs, Option.getD_some, Store.get, Ledger.get?_of_mem hw,
    Option.getD_some]

/-- The weight that is stored at a key of a label. -/
def stored? (r : Registry) (label key : Key) : Option Weight := (r.get? label).bind fun s => s.weights.get? key

theorem stored?_set (r : Registry) (label key l k : Key) (w : Weight) :
    (r.set label key w).stored? l k = if label.same l && key.same k then some w else r.stored? l k := by
  have hget : (r.set label key w).get? l =
      if label.same l then some ((r.storeOf label).set key w) else r.get? l := Ledger.get?_insert _ _ _ _
  rw [stored?, hget]
  cases hl : label.same l with
  | false => rfl
  | true =>
    rw [if_pos rfl, Option.bind_some, Store.set, Ledger.get?_insert, Bool.true_and, storeOf_congr r hl, stored?,
      storeOf]
    cases r.get? l <;> rfl

theorem exists_row_of_stored? {label key : Key} {w : Weight} (h : r.stored? label key = some w) :
    ∃ row ∈ r.rows, row.weight = w := by
  obtain ⟨store, hstore, hkey⟩ := Option.bind_eq_some_iff.mp h
  obtain ⟨e, he, rfl⟩ := Option.map_eq_some_iff.mp hstore
  obtain ⟨f, hf, rfl⟩ := Option.map_eq_some_iff.mp hkey
  refine ⟨⟨e.1.datum, f.1.datum, f.2⟩, List.mem_flatMap.mpr ⟨e, List.mem_of_find?_eq_some he, ?_⟩, rfl⟩
  exact List.mem_map.mpr ⟨f, List.mem_of_find?_eq_some hf, rfl⟩

/-- All readings of a model have a property. -/
def Everywhere (P : Weight → Prop) (r : Registry) : Prop := ∀ label key, P (r.weight label key)

namespace Everywhere

theorem empty (h : P Weight.unseen) : Everywhere P .empty := fun _ _ => h

theorem create (h : Everywhere P r) (label : Key) : Everywhere P (r.create label) := by
  intro l k
  rw [weight_create]
  exact h l k

theorem set (h : Everywhere P r) (label key : Key) {w : Weight} (hw : P w) :
    Everywhere P (r.set label key w) := by
  intro l k
  rw [weight_set]
  split
  · exact hw
  · exact h l k

theorem rows (h : Everywhere P r) : ∀ row ∈ r.rows, P row.weight := by
  intro row hrow
  obtain ⟨label, key, rfl⟩ := weight_of_mem_rows hrow
  exact h label key

end Everywhere

end Registry

end OnlineLearning
