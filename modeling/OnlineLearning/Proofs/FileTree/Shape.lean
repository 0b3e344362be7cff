import OnlineLearning.Proofs.FileTree.Access

/-!
# Trees of one shape

Two trees have one shape if they differ in nothing but the texts of their files. What is made and
written in one of them can then be made and written in the other, with the same faults, and the
shape stays the same. One lemma for each operation, from following a path to making a directory with
those it stands in.
-/

namespace OnlineLearning.FileTree

/-- Whether a node is a directory. -/
def Node.isDirectory : Node → Bool
  | directory => true
  | file _ => false

/-- Two trees that differ in nothing but the texts of their files. -/
structure SameShape (t u : FileTree) : Prop where
  start : t.start = u.start
  node : ∀ place, (t.node? place).map Node.isDirectory = (u.node? place).map Node.isDirectory

/-- Two results of one operation on trees of one shape. -/
inductive SameResult : Except Fault FileTree → Except Fault FileTree → Prop where
  | error (e : Fault) : SameResult (.error e) (.error e)
  | ok {t u : FileTree} (h : SameShape t u) : SameResult (.ok t) (.ok u)

theorem SameResult.exists_ok {t : FileTree} {x : Except Fault FileTree} (h : SameResult (.ok t) x) :
    ∃ u, x = .ok u ∧ SameShape t u := by
  cases h with
  | ok h => exact ⟨_, rfl, h⟩

namespace SameShape
variable {t u : FileTree} {place : List String} {content : String}

theorem put (h : SameShape t u) (hne : place ≠ []) {m n : Node} (hmn : m.isDirectory = n.isDirectory) :
    SameShape (t.put place m) (u.put place n) := by
  refine ⟨h.start, fun p => ?_⟩
  rw [node?_put t hne, node?_put u hne]
  split
  · exact congrArg some hmn
  · exact h.node p

theorem put_file (h : t.node? place = some (.file content)) (content' : String) :
    SameShape t (t.put place (.file content')) := by
  have hne : place ≠ [] := by
    rintro rfl
    cases h
  refine ⟨rfl, fun p => ?_⟩
  rw [node?_put t hne]
  split
  · rename_i hp
    rw [hp, h]
    rfl
  · rfl

theorem node_cases (h : SameShape t u) (place : List String) :
    t.node? place = none ∧ u.node? place = none ∨
      t.node? place = some .directory ∧ u.node? place = some .directory ∨
      ∃ c d, t.node? place = some (.file c) ∧ u.node? place = some (.file d) := by
  have hn := h.node place
  rcases ht : t.node? place with _ | (_ | c) <;> rcases hu : u.node? place with _ | (_ | d) <;>
    rw [ht, hu] at hn <;> cases hn
  · exact .inl ⟨rfl, rfl⟩
  · exact .inr (.inl ⟨rfl, rfl⟩)
  · exact .inr (.inr ⟨c, d, rfl, rfl⟩)

theorem follow (h : SameShape t u) (path : String) (origin : List String) (steps : List String) :
    t.follow path origin steps = u.follow path origin steps := by
  induction steps generalizing origin with
  | nil => rfl
  | cons s ss ih =>
    rw [FileTree.follow, FileTree.follow]
    obtain ⟨ht, hu⟩ | ⟨ht, hu⟩ | ⟨c, d, ht, hu⟩ := h.node_cases origin <;> rw [ht, hu]
    dsimp only
    rw [ih]

theorem locate (h : SameShape t u) (path : String) : t.locate path = u.locate path := by
  unfold FileTree.locate
  rw [h.start, h.follow]

theorem isDirectory (h : SameShape t u) (path : String) : t.isDirectory path = u.isDirectory path := by
  unfold FileTree.isDirectory look
  rw [h.locate]
  cases u.locate path with
  | error e => rfl
  | ok place =>
    dsimp only [bind, Except.bind]
    obtain ⟨ht, hu⟩ | ⟨ht, hu⟩ | ⟨c, d, ht, hu⟩ := h.node_cases place <;> rw [ht, hu]
    cases Path.endsInStroke path <;> rfl

theorem makeDirectory (h : SameShape t u) (path : String) :
    SameResult (t.makeDirectory path) (u.makeDirectory path) := by
  unfold FileTree.makeDirectory
  rw [h.locate]
  cases u.locate path with
  | error e => exact .error e
  | ok place =>
    dsimp only [bind, Except.bind]
    obtain ⟨ht, hu⟩ | ⟨ht, hu⟩ | ⟨c, d, ht, hu⟩ := h.node_cases place <;> rw [ht, hu]
    · have hne : place ≠ [] := by
        rintro rfl
        cases hu
      exact .ok (h.put hne rfl)
    · exact .error _
    · exact .error _

theorem write (h : SameShape t u) (path content content' : String) :
    SameResult (t.write path content) (u.write path content') := by
  unfold FileTree.write
  rw [h.locate]
  cases u.locate path with
  | error e => exact .error e
  | ok place =>
    have hput : t.node? place ≠ some .directory →
        SameResult (.ok (t.put place (.file content))) (.ok (u.put place (.file content'))) := by
      intro hn
      have hne : place ≠ [] := by
        rintro rfl
        exact hn rfl
      exact .ok (h.put hne rfl)
    dsimp only [bind, Except.bind]
    obtain ⟨ht, hu⟩ | ⟨ht, hu⟩ | ⟨c, d, ht, hu⟩ := h.node_cases place <;> rw [ht] at hput <;>
      rw [ht, hu] <;> cases Path.endsInStroke path
    · exact hput (by simp)
    · exact .error _
    · exact .error _
    · exact .error _
    · exact hput (by simp)
    · exact .error _

theorem ensureDirectory (h : SameShape t u) (path : String) :
    (t.ensureDirectory path).2 = (u.ensureDirectory path).2 ∧
      SameShape (t.ensureDirectory path).1 (u.ensureDirectory path).1 := by
  have hmake := h.makeDirectory path
  unfold FileTree.ensureDirectory
  cases ht : t.makeDirectory path <;> cases hu : u.makeDirectory path <;> rw [ht, hu] at hmake <;> cases hmake
  · rw [h.isDirectory]
    exact ⟨rfl, h⟩
  · rename_i h'
    exact ⟨rfl, h'⟩

theorem makeNames (h : SameShape t u) (root : String) (names : List String) :
    (t.makeNames root names).2 = (u.makeNames root names).2 ∧
      SameShape (t.makeNames root names).1 (u.makeNames root names).1 := by
  induction names with
  | nil => exact h.ensureDirectory _
  | cons name before ih =>
    have hmake := h.makeDirectory (Path.ofNames root (name :: before).reverse)
    have hensure := h.ensureDirectory (Path.ofNames root (name :: before).reverse)
    rw [FileTree.makeNames, FileTree.makeNames]
    generalize t.makeDirectory _ = x at hmake ⊢
    generalize u.makeDirectory _ = y at hmake ⊢
    cases hmake with
    | ok _ => exact hensure
    | error e =>
      -- only a missing way is made first; every other fault goes on to the same step
      cases e with
      | missingFile _ =>
        rcases ht : t.makeNames root before with ⟨t', _ | e⟩ <;>
          rcases hu : u.makeNames root before with ⟨u', _ | e'⟩ <;> rw [ht, hu] at ih
        · exact ih.2.ensureDirectory _
        · cases ih.1
        · cases ih.1
        · exact ih
      | _ => exact hensure

theorem makeFromEnd (h : SameShape t u) (path : String) :
    (t.makeFromEnd path).2 = (u.makeFromEnd path).2 ∧
      SameShape (t.makeFromEnd path).1 (u.makeFromEnd path).1 := h.makeNames _ _

theorem makeFromEnd_eq {made : FileTree} {path : String} (h : SameShape t u)
    (hmade : t.makeFromEnd path = (made, none)) :
    u.makeFromEnd path = ((u.makeFromEnd path).1, none) ∧ SameShape made (u.makeFromEnd path).1 := by
  obtain ⟨hfault, hshape⟩ := h.makeFromEnd path
  rw [hmade] at hfault hshape
  exact ⟨Prod.ext rfl hfault.symm, hshape⟩

theorem exists_write {done : FileTree} {path : String} (h : SameShape t u) (hdone : t.write path content = .ok done)
    (content' : String) : ∃ done', u.write path content' = .ok done' ∧ SameShape done done' := by
  have hwrite := h.write path content content'
  rw [hdone] at hwrite
  exact hwrite.exists_ok

end SameShape

end OnlineLearning.FileTree
