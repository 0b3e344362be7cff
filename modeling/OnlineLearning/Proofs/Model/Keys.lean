import OnlineLearning.Proofs.Model.Labels

/-!
# Keys in the order in which they came

A row of keys takes a key at its end, unless one of them is the same key already. So keys that are
entered one after another leave the row as it was and put the new ones behind it, each where it first
occurs (`foldl_enter`). The labels of a model are such a row, and so are the keys of a store.
-/

namespace OnlineLearning

namespace Key
variable {k l : Key} {ks ls known : List Key}

def isAmong (k : Key) (ks : List Key) : Bool := ks.any (·.same k)

/-- A row of keys with one more, unless it is there already. -/
def enter (ks : List Key) (k : Key) : List Key := if k.isAmong ks then ks else ks ++ [k]

/-- The keys that are not known, each where it first occurs. -/
def news (known ks : List Key) : List Key := (ks.filter fun k => !k.isAmong known).eraseDupsBy same

theorem isAmong_iff : k.isAmong ks = true ↔ ∃ l ∈ ks, l.same k = true := List.any_eq_true

theorem isAmong_of_mem (h : k ∈ ks) : k.isAmong ks = true := isAmong_iff.mpr ⟨k, h, same_self k⟩

theorem isAmong_append (k : Key) (ks ls : List Key) : k.isAmong (ks ++ ls) = (k.isAmong ks || k.isAmong ls) :=
  List.any_append

theorem isAmong_singleton (k l : Key) : k.isAmong [l] = l.same k := by
  rw [isAmong, List.any_cons, List.any_nil, Bool.or_false]

theorem same_of_datum_eq (h : k.datum = l.datum) : k.same l = true := by
  rw [same, h]
  exact same_self l

theorem eq_of_same (hdistinct : ks.Pairwise fun a b => a.same b = false) (hk : k ∈ ks) (hl : l ∈ ks)
    (h : k.same l = true) : k = l := by
  induction ks with
  | nil => cases hk
  | cons a ks ih =>
    obtain ⟨hhead, htail⟩ := List.pairwise_cons.mp hdistinct
    rcases List.mem_cons.mp hk with rfl | hk' <;> rcases List.mem_cons.mp hl with rfl | hl'
    · rfl
    · exact absurd (hhead l hl') (by rw [h]; exact Bool.noConfusion)
    · exact absurd (hhead k hk') (by rw [same_comm, h]; exact Bool.noConfusion)
    · exact ih htail hk' hl'

theorem isAmong_enter (ks : List Key) (k : Key) : k.isAmong (enter ks k) = true := by
  unfold enter
  split
  · assumption
  · exact isAmong_of_mem (List.mem_append_right ks (List.mem_singleton_self k))

theorem enter_enter (ks : List Key) (k : Key) : enter (enter ks k) k = enter ks k :=
  if_pos (isAmong_enter ks k)

theorem prefix_enter (ks : List Key) (k : Key) : ks <+: enter ks k := by
  unfold enter
  split
  · exact List.prefix_rfl
  · exact List.prefix_append ks [k]

theorem mem_enter (h : l ∈ enter ks k) : l ∈ ks ∨ l = k := by
  unfold enter at h
  split at h
  · exact .inl h
  · exact (List.mem_append.mp h).imp_right List.mem_singleton.mp

theorem news_cons_of_isAmong (h : k.isAmong known = true) (ks : List Key) : news known (k :: ks) = news known ks := by
  rw [news, List.filter_cons, h]
  rfl

theorem news_cons_of_not_isAmong (h : k.isAmong known = false) (ks : List Key) :
    news known (k :: ks) = k :: news (known ++ [k]) ks := by
  have hrest : (ks.filter fun a => !a.isAmong known).filter (fun a => decide (a.same k = false)) =
      ks.filter fun a => !a.isAmong (known ++ [k]) := by
    rw [List.filter_filter]
    refine List.filter_congr fun a _ => ?_
    rw [isAmong_append, isAmong_singleton, same_comm k a]
    cases a.same k <;> cases a.isAmong known <;> rfl
  rw [news, List.filter_cons, h, Bool.not_false, if_pos rfl, List.eraseDupsBy_cons, hrest, news]

/-- Keys that are entered one after another come in order of first occurrence. -/
theorem foldl_enter (known ks : List Key) : ks.foldl enter known = known ++ news known ks := by
  induction ks generalizing known with
  | nil => exact (List.append_nil known).symm
  | cons k ks ih =>
    rw [List.foldl_cons, ih]
    cases h : k.isAmong known with
    | true =>
      have henter : enter known k = known := if_pos h
      rw [henter, news_cons_of_isAmong h]
    | false =>
      have henter : enter known k = known ++ [k] := if_neg (by rw [h]; exact Bool.noConfusion)
      rw [henter, news_cons_of_not_isAmong h, List.append_assoc, List.singleton_append]

theorem mem_foldl_enter (h : k ∈ ks.foldl enter known) : k ∈ known ∨ k ∈ ks :=
  List.foldlRecOn (motive := fun row : List Key => ∀ l ∈ row, l ∈ known ∨ l ∈ ks) ks enter (fun _ hl => .inl hl)
    (fun _ hrow _ ha _ hl => (mem_enter hl).elim (hrow _) fun he => .inr (he ▸ ha)) k h

-- an integer, a float and a truth value are one key, and the first of them is kept
example : (news [ofText "a"] [⟨.int 1, rfl⟩, ofText "a", ⟨.float 1 0, rfl⟩, ⟨.bool true, rfl⟩]).length = 1 := by
  decide +kernel

end Key

namespace Ledger
variable {α : Type}

theorem contains_eq_isAmong (t : Ledger α) (k : Key) : t.contains k = k.isAmong t.keys := by
  rw [contains, Key.isAmong, keys, List.any_map]
  rfl

theorem keys_insert_eq (t : Ledger α) (k : Key) (v : α) : (t.insert k v).keys = Key.enter t.keys k := by
  rw [keys_insert, contains_eq_isAmong, Key.enter]

theorem distinct_keys (t : Ledger α) : t.keys.Pairwise fun a b => a.same b = false :=
  pairwise_fst_iff.mp t.distinct

end Ledger

namespace Registry
variable {r : Registry}

/-- The keys of a label in order of first insertion. -/
def keysOf (r : Registry) (label : Key) : List Key := (r.storeOf label).weights.keys

theorem contains_eq_isAmong (r : Registry) (label : Key) : r.contains label = label.isAmong r.labels :=
  Ledger.contains_eq_isAmong r.stores label

theorem labels_create_eq (r : Registry) (label : Key) : (r.create label).labels = Key.enter r.labels label := by
  rw [labels_create, contains_eq_isAmong, Key.enter]

theorem labels_set_eq (r : Registry) (label key : Key) (w : Weight) :
    (r.set label key w).labels = Key.enter r.labels label := by
  rw [labels_set, contains_eq_isAmong, Key.enter]

theorem keysOf_create (r : Registry) (label l : Key) : (r.create label).keysOf l = r.keysOf l := by
  rw [keysOf, storeOf_create, keysOf]

theorem keysOf_set (r : Registry) (label key l : Key) (w : Weight) :
    (r.set label key w).keysOf l = if label.same l then Key.enter (r.keysOf l) key else r.keysOf l := by
  rw [keysOf, storeOf_set]
  cases h : label.same l with
  | true => rw [if_pos rfl, if_pos rfl, storeOf_congr r h, Store.set, Ledger.keys_insert_eq, keysOf]
  | false => rw [if_neg Bool.noConfusion, if_neg Bool.noConfusion, keysOf]

theorem contains_create (r : Registry) (label : Key) : (r.create label).contains label = true := by
  rw [contains_eq_isAmong, labels_create_eq, Key.isAmong_enter]

/-! ### Models that grow -/

/-- The labels and the keys of each label of one model, and behind them perhaps more in another. -/
structure Extends (r r' : Registry) : Prop where
  labels : r.labels <+: r'.labels
  keys : ∀ label, r.keysOf label <+: r'.keysOf label

namespace Extends
variable {r₁ r₂ r₃ : Registry}

theorem refl (r : Registry) : r.Extends r := ⟨List.prefix_rfl, fun _ => List.prefix_rfl⟩

theorem trans (h : r₁.Extends r₂) (h' : r₂.Extends r₃) : r₁.Extends r₃ :=
  ⟨h.labels.trans h'.labels, fun label => (h.keys label).trans (h'.keys label)⟩

theorem create (h : r₁.Extends r₂) (label : Key) : r₁.Extends (r₂.create label) := by
  constructor
  · rw [labels_create_eq]
    exact h.labels.trans (Key.prefix_enter _ _)
  · intro l
    rw [keysOf_create]
    exact h.keys l

theorem set (h : r₁.Extends r₂) (label key : Key) (w : Weight) : r₁.Extends (r₂.set label key w) := by
  constructor
  · rw [labels_set_eq]
    exact h.labels.trans (Key.prefix_enter _ _)
  · intro l
    rw [keysOf_set]
    split
    · exact (h.keys l).trans (Key.prefix_enter _ _)
    · exact h.keys l

theorem contains (h : r₁.Extends r₂) {label : Key} (hlabel : r₁.contains label = true) :
    r₂.contains label = true := by
  obtain ⟨l, hl, hsame⟩ := contains_iff.mp hlabel
  exact contains_iff.mpr ⟨l, h.labels.subset hl, hsame⟩

end Extends

end Registry

end OnlineLearning
