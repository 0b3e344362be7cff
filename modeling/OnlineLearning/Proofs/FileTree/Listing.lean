import Mathlib.Data.List.Nodup
import OnlineLearning.Proofs.FileTree.Access

/-!
# What a directory holds

In a proper tree each place has one node and is a list of names. The names in a directory are then listed once each,
in order (`pairwise_list`), and they are those with a node below it (`mem_list_iff`). A path continued by a name
leads to the place continued by it (`locate_join_iff`), so a text in a directory in a directory is found by its
place (`text?_join_join_iff`).
-/

namespace OnlineLearning

namespace Path
variable {base name : String}

/-- What a file or directory can be called: one step of a path, which goes down. -/
structure IsName (name : String) : Prop where
  ne_empty : name ≠ ""
  ne_dot : name ≠ "."
  ne_dots : name ≠ ".."
  no_stroke : '/' ∉ name.toList
  no_null : '\x00' ∉ name.toList
  size_le : name.utf8ByteSize ≤ FileTree.nameLimit

instance (name : String) : Decidable (IsName name) :=
  decidable_of_iff (name ≠ "" ∧ name ≠ "." ∧ name ≠ ".." ∧ '/' ∉ name.toList ∧ '\x00' ∉ name.toList ∧
    name.utf8ByteSize ≤ FileTree.nameLimit)
    ⟨fun ⟨h₁, h₂, h₃, h₄, h₅, h₆⟩ => ⟨h₁, h₂, h₃, h₄, h₅, h₆⟩,
      fun ⟨h₁, h₂, h₃, h₄, h₅, h₆⟩ => ⟨h₁, h₂, h₃, h₄, h₅, h₆⟩⟩

theorem IsName.step (h : IsName name) (place : List String) : Path.step place name = place ++ [name] := by
  rw [Path.step, if_neg h.ne_dot, if_neg h.ne_dots]

theorem IsName.steps_join (h : IsName name) : steps (join base name) = steps base ++ [name] := by
  rw [Path.steps_join, steps_of_not_mem h.no_stroke h.ne_empty]

theorem mem_join_iff {c : Char} (hc : c ≠ '/') : c ∈ (join base name).toList ↔ c ∈ base.toList ∨ c ∈ name.toList := by
  unfold join
  split <;> simp [hc]

theorem utf8ByteSize_le_join : base.utf8ByteSize ≤ (join base name).utf8ByteSize := by
  unfold join
  split <;> simp only [String.utf8ByteSize_append] <;> omega

theorem join_ne_empty (hbase : base ≠ "") : join base name ≠ "" := by
  unfold join
  split <;> simp [hbase]

theorem IsName.endsInStroke_join (h : IsName name) : endsInStroke (join base name) = false := by
  have hne : name.toList ≠ [] := by simpa using h.ne_empty
  have hlast : name.toList.getLast hne ≠ '/' := fun hstroke => h.no_stroke (hstroke ▸ List.getLast_mem hne)
  unfold endsInStroke join
  split <;> simp [List.getLast?_append, List.getLast?_cons, List.getLast?_eq_some_getLast hne, hlast]

end Path

namespace FileTree
variable {t : FileTree} {path base name content : String} {place : List String} {names : List String}

/-- Each place of a tree has one node and is a list of names. -/
structure IsProper (t : FileTree) : Prop where
  nodup : (t.nodes.map Prod.fst).Nodup
  names : ∀ n ∈ t.nodes, ∀ name ∈ n.1, Path.IsName name

instance (t : FileTree) : Decidable t.IsProper :=
  decidable_of_iff ((t.nodes.map Prod.fst).Nodup ∧ ∀ n ∈ t.nodes, ∀ name ∈ n.1, Path.IsName name)
    ⟨fun ⟨h₁, h₂⟩ => ⟨h₁, h₂⟩, fun ⟨h₁, h₂⟩ => ⟨h₁, h₂⟩⟩

/-! ### Names in a directory -/

/-- The names of the nodes right below a place. -/
def namesAt (t : FileTree) (place : List String) : List String :=
  t.nodes.filterMap fun n => if n.1.dropLast = place then n.1.getLast? else none

theorem list_eq_ok_iff : t.list path = .ok names ↔ ∃ place, t.locate path = .ok place ∧
    t.node? place = some .directory ∧ (t.namesAt place).mergeSort (fun a b => a ≤ b) = names := by
  unfold list look
  cases hp : t.locate path with
  | error e => simp [bind, Except.bind]
  | ok place =>
    rcases hn : t.node? place with _ | (_ | content)
    · simp [bind, Except.bind, throw, throwThe, MonadExceptOf.throw, hn]
    · simp [bind, Except.bind, pure, Except.pure, hn, namesAt]
    · cases hs : Path.endsInStroke path <;>
        simp [bind, Except.bind, throw, throwThe, MonadExceptOf.throw, pure, Except.pure, hn]

theorem last_eq_some_iff {p : List String} :
    (if p.dropLast = place then p.getLast? else none) = some name ↔ p = place ++ [name] := by
  constructor
  · intro h
    split at h
    · rename_i hplace
      rw [← hplace, List.dropLast_append_getLast? name h]
    · cases h
  · rintro rfl
    simp

theorem isSome_node?_iff (h : place ≠ []) : (t.node? place).isSome = true ↔ ∃ n ∈ t.nodes, n.1 = place := by
  simp [node?, h]

theorem mem_namesAt_iff : name ∈ t.namesAt place ↔ (t.node? (place ++ [name])).isSome = true := by
  rw [isSome_node?_iff (by simp), namesAt, List.mem_filterMap]
  simp only [last_eq_some_iff]

theorem nodup_namesAt (ht : t.IsProper) : (t.namesAt place).Nodup := by
  have hmap : t.namesAt place =
      (t.nodes.map Prod.fst).filterMap fun p => if p.dropLast = place then p.getLast? else none := by
    rw [List.filterMap_map]
    rfl
  rw [hmap]
  refine ht.nodup.filterMap fun p q name hp hq => ?_
  rw [last_eq_some_iff.mp hp, last_eq_some_iff.mp hq]

/-- The names that are listed are those with a node below the directory. -/
theorem mem_list_iff (h : t.list path = .ok names) (hplace : t.locate path = .ok place) :
    name ∈ names ↔ (t.node? (place ++ [name])).isSome = true := by
  obtain ⟨place', hplace', -, rfl⟩ := list_eq_ok_iff.mp h
  obtain rfl := Except.ok.inj (hplace.symm.trans hplace')
  rw [(List.mergeSort_perm _ _).mem_iff, mem_namesAt_iff]

theorem isName_of_mem_list (ht : t.IsProper) (h : t.list path = .ok names) (hmem : name ∈ names) :
    Path.IsName name := by
  obtain ⟨place, -, -, rfl⟩ := list_eq_ok_iff.mp h
  rw [(List.mergeSort_perm _ _).mem_iff, mem_namesAt_iff] at hmem
  obtain ⟨n, hn, hplace⟩ := (isSome_node?_iff (by simp)).mp hmem
  exact ht.names n hn name (by rw [hplace]; simp)

theorem pairwise_mergeSort (names : List String) : (names.mergeSort fun a b => a ≤ b).Pairwise (· ≤ ·) := by
  have htrans : ∀ a b c : String, decide (a ≤ b) = true → decide (b ≤ c) = true → decide (a ≤ c) = true :=
    fun a b c hab hbc => decide_eq_true (String.le_trans (of_decide_eq_true hab) (of_decide_eq_true hbc))
  have htotal : ∀ a b : String, (decide (a ≤ b) || decide (b ≤ a)) = true := fun a b => by
    simpa using String.le_total a b
  exact (List.pairwise_mergeSort htrans htotal names).imp of_decide_eq_true

/-- Names are listed in order, each of them once. -/
theorem pairwise_list (ht : t.IsProper) (h : t.list path = .ok names) : names.Pairwise (· < ·) := by
  obtain ⟨place, -, -, rfl⟩ := list_eq_ok_iff.mp h
  have hnodup := (List.mergeSort_perm (t.namesAt place) fun a b => a ≤ b).nodup_iff.mpr (nodup_namesAt ht)
  refine ((pairwise_mergeSort (t.namesAt place)).and hnodup).imp fun {a b} hab => ?_
  exact String.not_le.mp fun hba => hab.2 (String.le_antisymm hab.1 hba)

/-- The names in a directory can be listed in one order only. -/
theorem list_of_perm (hplace : t.locate path = .ok place) (hdirectory : t.node? place = some .directory)
    (hsorted : names.Pairwise (· ≤ ·)) (hperm : (t.namesAt place).Perm names) : t.list path = .ok names := by
  refine list_eq_ok_iff.mpr ⟨place, hplace, hdirectory, ?_⟩
  exact ((List.mergeSort_perm _ _).trans hperm).eq_of_pairwise (fun _ _ _ _ => String.le_antisymm)
    (pairwise_mergeSort _) hsorted

/-! ### Paths continued by a name -/

theorem follow_concat_iff (path' : String) {steps : List String} {s : String} {origin p : List String} :
    t.follow path origin (steps ++ [s]) = .ok p ↔ ∃ place, t.follow path' origin steps = .ok place ∧
      t.node? place = some .directory ∧ s.utf8ByteSize ≤ nameLimit ∧ Path.step place s = p := by
  induction steps generalizing origin with
  | nil =>
    rw [List.nil_append, follow]
    rcases hn : t.node? origin with _ | (_ | content)
    · simp [follow, hn]
    · by_cases hs : s.utf8ByteSize ≤ nameLimit
      · simp [follow, hn, hs, Nat.not_lt.mpr hs]
      · simp [follow, hn, hs, Nat.lt_of_not_le hs]
    · simp [follow, hn]
  | cons s' steps ih =>
    rw [List.cons_append, follow, follow]
    rcases t.node? origin with _ | (_ | content)
    · simp
    · dsimp only
      split
      · simp
      · exact ih
    · simp

/-- A path continued by a name leads from the directory of the path to what has the name there. -/
theorem locate_join_iff (hbase : base ≠ "") (hname : Path.IsName name) {p : List String} :
    t.locate (Path.join base name) = .ok p ↔ (Path.join base name).utf8ByteSize ≤ pathLimit ∧
      ∃ place, t.locate base = .ok place ∧ t.node? place = some .directory ∧ place ++ [name] = p := by
  have hnull : '\x00' ∈ (Path.join base name).toList ↔ '\x00' ∈ base.toList := by
    rw [Path.mem_join_iff (by decide), or_iff_left hname.no_null]
  have hsize : base.utf8ByteSize ≤ (Path.join base name).utf8ByteSize := Path.utf8ByteSize_le_join
  simp only [locate_eq_ok_iff, hnull, Path.isAbsolute_join hname.no_stroke, hname.steps_join, ne_eq, hbase,
    Path.join_ne_empty hbase, not_false_eq_true, true_and, follow_concat_iff base, hname.step]
  constructor
  · rintro ⟨hnull, hle, place, hfollow, hnode, -, hp⟩
    exact ⟨hle, place, ⟨hnull, Nat.le_trans hsize hle, hfollow⟩, hnode, hp⟩
  · rintro ⟨hle, place, ⟨hnull, -, hfollow⟩, hnode, hp⟩
    exact ⟨hnull, hle, place, hfollow, hnode, hname.size_le, hp⟩

theorem text?_eq_some_iff : t.text? path = some content ↔ t.read path = .ok content := by
  unfold text? read
  rcases t.look path with e | (_ | c) <;> simp [bind, Except.bind, throw, throwThe, MonadExceptOf.throw, pure, Except.pure]

/-- A text in a directory in another one is found by its place. -/
theorem text?_join_join_iff {file : String} (hplace : t.locate base = .ok place) (hname : Path.IsName name)
    (hfile : Path.IsName file) : t.text? (Path.join (Path.join base name) file) = some content ↔
      (Path.join (Path.join base name) file).utf8ByteSize ≤ pathLimit ∧ t.node? place = some .directory ∧
        t.node? (place ++ [name]) = some .directory ∧ t.node? (place ++ [name, file]) = some (.file content) := by
  have hbase : base ≠ "" := (locate_eq_ok_iff.mp hplace).2.1
  have hsize : (Path.join base name).utf8ByteSize ≤ (Path.join (Path.join base name) file).utf8ByteSize :=
    Path.utf8ByteSize_le_join
  rw [text?_eq_some_iff, read_eq_ok_iff]
  simp only [locate_join_iff (Path.join_ne_empty hbase) hfile, locate_join_iff hbase hname, hplace]
  constructor
  · rintro ⟨p, ⟨hle, q, ⟨-, place', hplace', hdirectory, rfl⟩, hbelow, rfl⟩, hnode, -⟩
    obtain rfl := Except.ok.inj hplace'
    exact ⟨hle, hdirectory, hbelow, by simpa using hnode⟩
  · rintro ⟨hle, hdirectory, hbelow, hnode⟩
    exact ⟨_, ⟨hle, _, ⟨Nat.le_trans hsize hle, _, rfl, hdirectory, rfl⟩, hbelow, rfl⟩, by simpa using hnode,
      hfile.endsInStroke_join⟩

end FileTree

end OnlineLearning
