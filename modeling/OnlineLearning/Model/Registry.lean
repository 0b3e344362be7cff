import OnlineLearning.Model.Store

/-! # The model of a session

A registry gives every known label a store of its own, in the order in which the labels became
known. -/

namespace OnlineLearning

/-- One stored weight of a model, with its label and its key. -/
structure Row where
  label : Datum
  key : Datum
  weight : Weight

/-- The stores of all known labels. -/
structure Registry where
  stores : Ledger Store := .empty

namespace Registry

def empty : Registry := {}

instance : Inhabited Registry := ⟨empty⟩

def labels (r : Registry) : List Key := r.stores.keys

def size (r : Registry) : Nat := r.stores.size

def get? (r : Registry) (label : Key) : Option Store := r.stores.get? label

def contains (r : Registry) (label : Key) : Bool := r.stores.contains label

/-- The registry in which a label is known. -/
def create (r : Registry) (label : Key) : Registry := ⟨r.stores.insertNew label {}⟩

/-- The store of a label, or an empty one. -/
def storeOf (r : Registry) (label : Key) : Store := (r.get? label).getD {}

/-- The weight of a key under a label. -/
def weight (r : Registry) (label key : Key) : Weight := (r.storeOf label).get key

def setStore (r : Registry) (label : Key) (s : Store) : Registry := ⟨r.stores.insert label s⟩

def set (r : Registry) (label key : Key) (w : Weight) : Registry :=
  r.setStore label ((r.storeOf label).set key w)

/-- The weight of a key under a label; the key of an unknown label does not matter. -/
def weightOf (r : Registry) (label key : Datum) : Except Fault Weight := do
  let label ← label.toKey
  if r.contains label then return r.weight label (← key.toKey) else return Weight.unseen

/-- How many weights are stored under all labels. -/
def weightCount (r : Registry) : Nat := r.stores.entries.foldr (fun e n => e.2.size + n) 0

/-- Every stored weight, by label and then by key, in order of insertion. -/
def rows (r : Registry) : List Row :=
  r.stores.entries.flatMap fun (label, store) =>
    store.weights.entries.map fun (key, w) => ⟨label.datum, key.datum, w⟩

theorem storeOf_congr (r : Registry) {k l : Key} (h : k.same l = true) :
    r.storeOf k = r.storeOf l := by
  rw [storeOf, storeOf, get?, get?, Ledger.get?_congr _ h]

theorem storeOf_setStore (r : Registry) (label l : Key) (s : Store) :
    (r.setStore label s).storeOf l = if label.same l then s else r.storeOf l := by
  simp only [storeOf, get?, setStore, Ledger.get?_insert]
  split <;> rfl

theorem storeOf_create (r : Registry) (label l : Key) :
    (r.create label).storeOf l = r.storeOf l := by
  simp only [storeOf, get?, create, Ledger.get?_insertNew]
  cases r.stores.get? l <;> cases label.same l <;> rfl

theorem weight_create (r : Registry) (label l k : Key) :
    (r.create label).weight l k = r.weight l k := by
  rw [weight, storeOf_create, weight]

theorem weight_set (r : Registry) (label key l k : Key) (w : Weight) :
    (r.set label key w).weight l k = if label.same l && key.same k then w else r.weight l k := by
  simp only [weight, set, storeOf_setStore]
  by_cases h : label.same l
  · simp only [h, if_true, Bool.true_and, Store.get_set, storeOf_congr r h]
  · simp [h]

theorem labels_create (r : Registry) (label : Key) :
    (r.create label).labels = if r.contains label then r.labels else r.labels ++ [label] :=
  Ledger.keys_insertNew _ _ _

theorem labels_set (r : Registry) (label key : Key) (w : Weight) :
    (r.set label key w).labels = if r.contains label then r.labels else r.labels ++ [label] :=
  Ledger.keys_insert _ _ _

theorem length_rows (r : Registry) : r.rows.length = r.weightCount := by
  unfold rows weightCount
  induction r.stores.entries with
  | nil => rfl
  | cons e es ih => simp [ih, Store.size, Ledger.size]

end Registry

end OnlineLearning
