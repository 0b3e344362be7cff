import OnlineLearning.Proofs.Model.Alike
import OnlineLearning.Proofs.Model.Places

/-!
# The rows of a model as a snapshot

The rows of a model tell all there is to read. At a label and a key there is one row if a weight is stored, and
none otherwise (`filter_rows`); so in a model whose stores read an unseen weight where nothing is stored, what
the rows tell is what a reading gives (`weightOf_eq_weightIn`).
-/

namespace OnlineLearning

namespace Row

/-- Whether a row is that of a label and a key. -/
def isAt (row : Row) (label key : Key) : Bool := row.label.agrees label.datum && row.key.agrees key.datum

/-- What rows tell of the weight at a label and a key. -/
def weightIn (rows : List Row) (label key : Key) : Weight :=
  ((rows.find? (·.isAt label key)).map Row.weight).getD Weight.unseen

end Row

namespace Ledger
variable {α : Type}

theorem filter_same {es : List (Key × α)} (hd : es.Pairwise fun a b => a.1.same b.1 = false) (k : Key) :
    es.filter (fun e => e.1.same k) = (es.find? fun e => e.1.same k).toList := by
  induction es with
  | nil => rfl
  | cons e es ih =>
    obtain ⟨hhead, htail⟩ := List.pairwise_cons.mp hd
    rw [List.filter_cons, List.find?_cons]
    cases hk : e.1.same k with
    | false => exact ih htail
    | true =>
      have hrest : es.filter (fun e => e.1.same k) = [] := by
        refine List.filter_eq_nil_iff.mpr fun e' he' => ?_
        rw [← Key.same_congr_right hk, Key.same_comm, hhead e' he']
        exact Bool.noConfusion
      rw [if_pos rfl, hrest]
      rfl

theorem map_snd_filter (t : Ledger α) (k : Key) :
    (t.entries.filter fun e => e.1.same k).map Prod.snd = (t.get? k).toList := by
  rw [filter_same t.distinct, get?]
  cases t.entries.find? fun e => e.1.same k <;> rfl

end Ledger

theorem flatMap_filter {α β : Type} (p : α → Bool) (f : α → List β) (xs : List α) :
    (xs.filter p).flatMap f = xs.flatMap fun x => if p x then f x else [] := by
  induction xs with
  | nil => rfl
  | cons x xs ih =>
    rw [List.filter_cons, List.flatMap_cons, ← ih]
    cases p x <;> rfl

namespace Registry
variable {r : Registry}

/-- Of the rows of a label, those at a key: one with the weight that is stored there, or none. -/
theorem filter_entries (l label key : Key) (s : Store) :
    ((s.weights.entries.map fun e => (⟨l.datum, e.1.datum, e.2⟩ : Row)).filter (·.isAt label key)).map Row.weight =
      if l.same label then (s.weights.get? key).toList else [] := by
  rw [List.filter_map, List.map_map, ← Ledger.map_snd_filter]
  show ((s.weights.entries.filter fun e => l.same label && e.1.same key).map Prod.snd) = _
  cases l.same label with
  | true => rfl
  | false =>
    show ((s.weights.entries.filter fun _ => false).map Prod.snd) = []
    rw [List.filter_false, List.map_nil]

theorem filter_rows (r : Registry) (label key : Key) :
    (r.rows.filter (·.isAt label key)).map Row.weight = (r.stored? label key).toList := by
  have hstores := Ledger.map_snd_filter r.stores label
  calc (r.rows.filter (·.isAt label key)).map Row.weight
    _ = r.stores.entries.flatMap fun e => if e.1.same label then (e.2.weights.get? key).toList else [] := by
      rw [rows, List.filter_flatMap, List.map_flatMap]
      exact congrArg (List.flatMap · r.stores.entries) (funext fun e => filter_entries e.1 label key e.2)
    _ = ((r.stores.entries.filter fun e => e.1.same label).map Prod.snd).flatMap fun s =>
          (s.weights.get? key).toList := by
      rw [List.flatMap_map, flatMap_filter]
    _ = (r.stored? label key).toList := by
      rw [hstores, stored?, get?]
      cases r.stores.get? label <;> simp

/-- Every store reads an unseen weight where nothing is stored. -/
def ReadsUnseen (r : Registry) : Prop := ∀ label, (r.storeOf label).default = Weight.unseen

theorem weight_eq_stored? (h : r.ReadsUnseen) (label key : Key) :
    r.weight label key = (r.stored? label key).getD Weight.unseen := by
  have hdefault := h label
  rw [storeOf] at hdefault
  rw [weight, storeOf, stored?]
  cases hstore : r.get? label with
  | none => rfl
  | some s =>
    rw [hstore] at hdefault
    rw [Option.getD_some, Option.bind_some, Store.get]
    exact congrArg _ hdefault

/-- What rows tell of a label and a key is what a reading gives. -/
theorem weightOf_eq_weightIn (h : r.ReadsUnseen) (label key : Key) :
    r.weightOf label.datum key.datum = .ok (Row.weightIn r.rows label key) := by
  have hrow : (r.rows.find? (·.isAt label key)).map Row.weight = r.stored? label key := by
    rw [← List.head?_filter, ← List.head?_map, filter_rows]
    cases r.stored? label key <;> rfl
  rw [weightOf_datum, weight_eq_stored? h, Row.weightIn, hrow]

namespace ReadsUnseen

theorem empty : ReadsUnseen .empty := fun _ => rfl

theorem create (h : r.ReadsUnseen) (label : Key) : (r.create label).ReadsUnseen := by
  intro l
  rw [storeOf_create]
  exact h l

theorem set (h : r.ReadsUnseen) (label key : Key) (w : Weight) : (r.set label key w).ReadsUnseen := by
  intro l
  rw [storeOf_set]
  split
  · exact h label
  · exact h l

end ReadsUnseen

end Registry

end OnlineLearning
