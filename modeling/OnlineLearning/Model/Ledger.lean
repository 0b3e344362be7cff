import OnlineLearning.Datum.Agreement

/-! # Tables in order of first insertion

A ledger maps keys to values and keeps its keys in the order in which they first came. A key that
comes again, perhaps as another datum that agrees with the first, keeps its place and its first
form. A lookup finds what was last put at a key, which is `get?_insert`. -/

namespace OnlineLearning

/-- A table whose keys stay in order of first insertion, no two of them the same. -/
structure Ledger (α : Type) where
  entries : List (Key × α) := []
  distinct : entries.Pairwise fun a b => a.1.same b.1 = false := by simp

namespace Ledger

variable {α β : Type}

def empty : Ledger α := {}

instance : Inhabited (Ledger α) := ⟨empty⟩

def keys (t : Ledger α) : List Key := t.entries.map Prod.fst

def size (t : Ledger α) : Nat := t.entries.length

def get? (t : Ledger α) (k : Key) : Option α :=
  (t.entries.find? fun e => e.1.same k).map Prod.snd

def contains (t : Ledger α) (k : Key) : Bool := t.entries.any fun e => e.1.same k

/-- The entries with the value at `k` replaced, or put at the end. -/
def insertEntry (k : Key) (v : α) : List (Key × α) → List (Key × α)
  | [] => [(k, v)]
  | e :: es => if e.1.same k then (e.1, v) :: es else e :: insertEntry k v es

theorem map_fst_insertEntry (k : Key) (v : α) (es : List (Key × α)) :
    (insertEntry k v es).map Prod.fst =
      if es.any fun e => e.1.same k then es.map Prod.fst else es.map Prod.fst ++ [k] := by
  induction es with
  | nil => rfl
  | cons e es ih =>
    by_cases h : e.1.same k
    · simp [insertEntry, h]
    · simp only [insertEntry, h, if_false, List.map_cons, ih, List.any_cons, Bool.false_or,
        Bool.false_eq_true]
      split <;> rfl

theorem pairwise_fst_iff {es : List (Key × α)} :
    (es.Pairwise fun a b => a.1.same b.1 = false) ↔
      (es.map Prod.fst).Pairwise fun a b => a.same b = false :=
  by rw [List.pairwise_map]

theorem pairwise_insertEntry (k : Key) (v : α) {es : List (Key × α)}
    (h : es.Pairwise fun a b => a.1.same b.1 = false) :
    (insertEntry k v es).Pairwise fun a b => a.1.same b.1 = false := by
  rw [pairwise_fst_iff] at h ⊢
  rw [map_fst_insertEntry]
  split
  · exact h
  · rename_i hk
    rw [List.pairwise_append]
    refine ⟨h, List.pairwise_singleton _ _, fun a ha b hb => ?_⟩
    obtain rfl := List.mem_singleton.mp hb
    obtain ⟨e, he, rfl⟩ := List.mem_map.mp ha
    exact Bool.eq_false_iff.mpr fun hs => hk (List.any_eq_true.mpr ⟨e, he, hs⟩)

def insert (t : Ledger α) (k : Key) (v : α) : Ledger α :=
  ⟨insertEntry k v t.entries, pairwise_insertEntry k v t.distinct⟩

/-- The table with a value at the key `k`: the one it has, or else `v`. -/
def insertNew (t : Ledger α) (k : Key) (v : α) : Ledger α :=
  if t.contains k then t else t.insert k v

theorem keys_insert (t : Ledger α) (k : Key) (v : α) :
    (t.insert k v).keys = if t.contains k then t.keys else t.keys ++ [k] :=
  map_fst_insertEntry k v t.entries

theorem size_eq (t : Ledger α) : t.size = t.keys.length := by
  simp [size, keys]

theorem find?_insertEntry (k l : Key) (v : α) (es : List (Key × α)) :
    ((insertEntry k v es).find? fun e => e.1.same l).map Prod.snd =
      if k.same l then some v else (es.find? fun e => e.1.same l).map Prod.snd := by
  induction es with
  | nil =>
    by_cases h : k.same l <;> simp [insertEntry, h]
  | cons e es ih =>
    by_cases he : e.1.same k
    · by_cases h : k.same l
      · simp [insertEntry, he, h, Key.same_trans he h]
      · have hl : e.1.same l = false := by
          rw [Key.same_congr_left he]; exact Bool.eq_false_iff.mpr h
        simp [insertEntry, he, h, hl]
    · by_cases hl : e.1.same l
      · have h : k.same l = false := by
          rw [Bool.eq_false_iff]
          exact fun h => he (by rwa [Key.same_congr_right h])
        simp [insertEntry, he, hl, h]
      · simp only [insertEntry, he, Bool.false_eq_true, if_false, List.find?_cons, hl, ih]

theorem get?_insert (t : Ledger α) (k l : Key) (v : α) :
    (t.insert k v).get? l = if k.same l then some v else t.get? l :=
  find?_insertEntry k l v t.entries

theorem contains_eq (t : Ledger α) (k : Key) : t.contains k = (t.get? k).isSome := by
  simp [contains, get?, List.isSome_find?]

theorem get?_congr (t : Ledger α) {k l : Key} (h : k.same l = true) : t.get? k = t.get? l := by
  unfold get?
  simp only [Key.same_congr_right h]

theorem get?_eq_none_iff {t : Ledger α} {k : Key} : t.get? k = none ↔ t.contains k = false := by
  rw [contains_eq, Option.isSome_eq_false_iff, Option.isNone_iff_eq_none]

theorem get?_insertNew (t : Ledger α) (k l : Key) (v : α) :
    (t.insertNew k v).get? l = (t.get? l).or (if k.same l then some v else none) := by
  unfold insertNew
  split
  · rename_i hk
    by_cases h : k.same l
    · rw [contains_eq, get?_congr t h] at hk
      rw [Option.or_of_isSome hk]
    · rw [if_neg h, Option.or_none]
  · rename_i hk
    rw [get?_insert]
    by_cases h : k.same l
    · have hl : t.get? l = none := by
        rw [← get?_congr t h]
        exact get?_eq_none_iff.mpr (Bool.eq_false_iff.mpr hk)
      rw [if_pos h, hl, Option.none_or, if_pos h]
    · rw [if_neg h, if_neg h, Option.or_none]

theorem keys_insertNew (t : Ledger α) (k : Key) (v : α) :
    (t.insertNew k v).keys = if t.contains k then t.keys else t.keys ++ [k] := by
  unfold insertNew
  split
  · rfl
  · rename_i h
    rw [keys_insert, if_neg h]

end Ledger

end OnlineLearning
