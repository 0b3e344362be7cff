import OnlineLearning.FileTree.Making

/-!
# What reading and writing come to

Each operation on a path is one on the place that the path leads to. So a text that can be read
stays where it is when something is put at another place: when directories are made
(`read_makeFromEnd`), and when a file of another name is written next to it (`read_write_of_ne`).
-/

namespace OnlineLearning

namespace Text

theorem splitAt_append_cons (sep : Char) (cs rest : List Char) :
    splitAt sep (cs ++ sep :: rest) = splitAt sep cs ++ splitAt sep rest := by
  induction cs with
  | nil => simp [splitAt]
  | cons c cs ih =>
    rw [List.cons_append, splitAt, splitAt, ih]
    split
    · rfl
    · obtain ⟨part, parts, hparts⟩ := List.exists_cons_of_ne_nil (splitAt_ne_nil sep cs)
      rw [hparts]
      rfl

end Text

namespace Path
variable {dir name : String}

theorem steps_of_not_mem (hslash : '/' ∉ name.toList) (hne : name ≠ "") : steps name = [name] := by
  rw [steps, Text.splitAt_of_not_mem hslash]
  simp [String.ofList_toList, hne]

theorem steps_append_of_endsInStroke (h : endsInStroke dir = true) :
    steps (dir ++ name) = steps dir ++ steps name := by
  have hlast : dir.toList.getLast? = some '/' := by simpa [endsInStroke] using h
  obtain ⟨before, hbefore⟩ := List.getLast?_eq_some_iff.mp hlast
  unfold steps
  rw [String.toList_append, hbefore, List.append_assoc, List.singleton_append,
    Text.splitAt_append_cons, Text.splitAt_append_cons]
  simp [Text.splitAt]

theorem steps_append_stroke : steps (dir ++ "/" ++ name) = steps dir ++ steps name := by
  have hstroke : (dir ++ "/" ++ name).toList = dir.toList ++ '/' :: name.toList := by simp
  unfold steps
  rw [hstroke, Text.splitAt_append_cons, List.map_append, List.filter_append]

theorem steps_join : steps (join dir name) = steps dir ++ steps name := by
  unfold join
  split
  · rename_i h
    rcases Bool.or_eq_true _ _ ▸ h with h | h
    · obtain rfl : dir = "" := by simpa using h
      rfl
    · exact steps_append_of_endsInStroke h
  · exact steps_append_stroke

theorem isAbsolute_join (hslash : '/' ∉ name.toList) : isAbsolute (join dir name) = isAbsolute dir := by
  unfold join isAbsolute
  by_cases h : dir = ""
  · subst h
    cases hname : name.toList with
    | nil => simp [hname]
    | cons c cs =>
      rw [hname] at hslash
      have hc : c ≠ '/' := fun e => hslash (e ▸ List.mem_cons_self ..)
      simp [hname, hc]
  · obtain ⟨c, cs, hdir⟩ := List.exists_cons_of_ne_nil (l := dir.toList) (by simpa using h)
    split <;> simp [hdir]

/-- A name is the last step of a path that is continued by it. -/
theorem place_join (start : List String) (hslash : '/' ∉ name.toList) (hne : name ≠ "") (hdot : name ≠ ".")
    (hdots : name ≠ "..") : place start (join dir name) = place start dir ++ [name] := by
  unfold place
  rw [steps_join, steps_of_not_mem hslash hne, isAbsolute_join hslash, List.foldl_append]
  simp [step, hdot, hdots]

end Path

/-- Every character takes a byte at least. -/
theorem Text.length_le_utf8ByteSize (cs : List Char) : cs.length ≤ (String.ofList cs).utf8ByteSize := by
  induction cs with
  | nil => exact Nat.zero_le _
  | cons c cs ih =>
    have hsize := c.utf8Size_pos
    rw [← List.singleton_append, String.ofList_append, String.utf8ByteSize_append, List.length_append,
      ← String.singleton_eq_ofList, String.utf8ByteSize_singleton, List.length_singleton]
    omega

namespace FileTree
variable {t u : FileTree} {path content : String} {place : List String}

theorem eq_foldl_of_follow {steps : List String} {origin p : List String}
    (h : t.follow path origin steps = .ok p) : p = steps.foldl Path.step origin := by
  induction steps generalizing origin with
  | nil => exact (Except.ok.inj h).symm
  | cons s ss ih =>
    rw [follow] at h
    split at h
    · cases h
    · cases h
    · split at h
      · cases h
      · exact ih h

theorem locate_eq_ok_iff : t.locate path = .ok place ↔ '\x00' ∉ path.toList ∧ path ≠ "" ∧
    path.utf8ByteSize ≤ pathLimit ∧
      t.follow path (if Path.isAbsolute path then [] else t.start) (Path.steps path) = .ok place := by
  unfold locate
  by_cases hnull : '\x00' ∈ path.toList
  · simp [hnull]
  · by_cases hempty : path = ""
    · simp [hempty]
    · by_cases hsize : path.utf8ByteSize ≤ pathLimit
      · simp [hnull, hempty, hsize, Nat.not_lt.mpr hsize]
      · simp [hnull, hempty, hsize, Nat.lt_of_not_le hsize]

theorem eq_place_of_locate (h : t.locate path = .ok place) : place = Path.place t.start path :=
  have ⟨_, _, _, hfollow⟩ := locate_eq_ok_iff.mp h
  eq_foldl_of_follow hfollow

theorem read_eq_ok_iff : t.read path = .ok content ↔
    ∃ place, t.locate path = .ok place ∧ t.node? place = some (.file content) ∧
      Path.endsInStroke path = false := by
  unfold read look
  cases hp : t.locate path with
  | error e => simp [bind, Except.bind]
  | ok place =>
    cases hn : t.node? place with
    | none => simp [bind, Except.bind, throw, throwThe, MonadExceptOf.throw, hn]
    | some node =>
      cases node with
      | directory => simp [bind, Except.bind, throw, throwThe, MonadExceptOf.throw, pure, Except.pure, hn]
      | file c =>
        cases hs : Path.endsInStroke path <;>
          simp [bind, Except.bind, throw, throwThe, MonadExceptOf.throw, pure, Except.pure, hn]

theorem length_le_of_read (h : t.read path = .ok content) : path.toList.length ≤ pathLimit := by
  obtain ⟨place, hplace, -⟩ := read_eq_ok_iff.mp h
  obtain ⟨-, -, hsize, -⟩ := locate_eq_ok_iff.mp hplace
  have hlength := Text.length_le_utf8ByteSize path.toList
  rw [String.ofList_toList] at hlength
  exact Nat.le_trans hlength hsize

theorem write_eq_ok_iff : t.write path content = .ok u ↔
    ∃ place, t.locate path = .ok place ∧ Path.endsInStroke path = false ∧
      t.node? place ≠ some .directory ∧ t.put place (.file content) = u := by
  unfold write
  cases hp : t.locate path with
  | error e => simp [bind, Except.bind]
  | ok place =>
    cases hs : Path.endsInStroke path <;> by_cases hn : t.node? place = some .directory <;>
      simp [bind, Except.bind, throw, throwThe, MonadExceptOf.throw, pure, Except.pure, hn]

theorem makeDirectory_eq_ok_iff : t.makeDirectory path = .ok u ↔
    ∃ place, t.locate path = .ok place ∧ t.node? place = none ∧ t.put place .directory = u := by
  unfold makeDirectory
  cases hp : t.locate path with
  | error e => simp [bind, Except.bind]
  | ok place =>
    cases hn : t.node? place <;>
      simp [bind, Except.bind, throw, throwThe, MonadExceptOf.throw, pure, Except.pure, hn]

theorem read_put {node : Node} (hplace : t.node? place ≠ some .directory) (hne : t.locate path ≠ .ok place)
    (h : t.read path = .ok content) : (t.put place node).read path = .ok content := by
  obtain ⟨p, hp, hfile, hstroke⟩ := read_eq_ok_iff.mp h
  have hnil : place ≠ [] := fun e => hplace (by rw [e]; rfl)
  have hpne : p ≠ place := fun e => hne (e ▸ hp)
  refine read_eq_ok_iff.mpr ⟨p, locate_put hplace node hp, ?_, hstroke⟩
  rw [node?_put t hnil, if_neg hpne]
  exact hfile

theorem read_makeDirectory {dir : String} (hmake : t.makeDirectory dir = .ok u)
    (h : t.read path = .ok content) : u.read path = .ok content := by
  obtain ⟨place, -, hnone, rfl⟩ := makeDirectory_eq_ok_iff.mp hmake
  refine read_put (by rw [hnone]; simp) (fun hp => ?_) h
  obtain ⟨p, hp', hfile, -⟩ := read_eq_ok_iff.mp h
  obtain rfl := Except.ok.inj (hp'.symm.trans hp)
  rw [hnone] at hfile
  cases hfile

theorem read_ensureDirectory (dir : String) (h : t.read path = .ok content) :
    (t.ensureDirectory dir).1.read path = .ok content := by
  unfold ensureDirectory
  cases hmake : t.makeDirectory dir with
  | ok u => exact read_makeDirectory hmake h
  | error e => exact h

theorem read_makeNames (root : String) (names : List String) (h : t.read path = .ok content) :
    (t.makeNames root names).1.read path = .ok content := by
  induction names with
  | nil => exact read_ensureDirectory _ h
  | cons name before ih =>
    rw [makeNames]
    split
    · split
      · rename_i hmake
        rwa [hmake] at ih
      · rename_i hmake
        rw [hmake] at ih
        exact read_ensureDirectory _ ih
    · exact read_ensureDirectory _ h

theorem read_makeFromEnd (dir : String) (h : t.read path = .ok content) :
    (t.makeFromEnd dir).1.read path = .ok content := read_makeNames _ _ h

/-- A text stays when a file at another place is written. -/
theorem read_write_of_ne {path' content' : String} (hwrite : t.write path' content' = .ok u)
    (hne : Path.place t.start path ≠ Path.place t.start path') (h : t.read path = .ok content) :
    u.read path = .ok content := by
  obtain ⟨place, hplace, -, hnode, rfl⟩ := write_eq_ok_iff.mp hwrite
  refine read_put hnode (fun hp => hne ?_) h
  rw [← eq_place_of_locate hp, ← eq_place_of_locate hplace]

end FileTree

end OnlineLearning
