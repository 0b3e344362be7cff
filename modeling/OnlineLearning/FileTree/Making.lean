import OnlineLearning.FileTree.Basic

/-! # Making directories

There are two ways to make a directory together with those it stands in. They differ in what a fault
names and in what is made before it: one starts with the first directory that is not there, the
other tries the last one and goes back only as far as directories are missing. Neither minds a
directory that is there already. -/

namespace OnlineLearning.FileTree

/-- Makes a directory in one that is there. -/
def makeDirectory (t : FileTree) (path : String) : Except Fault FileTree := do
  let place ← t.locate path
  if (t.node? place).isSome then throw (.fileExists path)
  return t.put place .directory

/-- A directory made in one that is there, if it was not there before. -/
def ensureDirectory (t : FileTree) (path : String) : FileTree × Option Fault :=
  match t.makeDirectory path with
  | .ok t => (t, none)
  | .error e => (t, if t.isDirectory path then none else some e)

/-- Makes the directory of names that lead on from a root, the last name first in the list. If the
way to it is missing, that is made first; every other fault ends it. -/
def makeNames (t : FileTree) (root : String) : List String → FileTree × Option Fault
  | [] => t.ensureDirectory (Path.ofNames root [])
  | name :: before =>
    let path := Path.ofNames root (name :: before).reverse
    match t.makeDirectory path with
    | .error (.missingFile _) =>
      match t.makeNames root before with
      | (t, some e) => (t, some e)
      | (t, none) => t.ensureDirectory path
    | _ => t.ensureDirectory path

/-- Makes the directory of a path from its end: the whole path is tried first. Paths are taken
without the steps that stay where they are. -/
def makeFromEnd (t : FileTree) (path : String) : FileTree × Option Fault :=
  t.makeNames (Path.root path) (Path.names path).reverse

/-- Makes the directory of a path after the one that it stands in, if that is not there. A file in
the way is left to show in the next step. -/
def makeAfter (t : FileTree) (path : List Char) : FileTree × Option Fault :=
  let before := (Path.cutLast path).1
  let last := (Path.cutLast path).2
  if last ≠ [] ∧ before ≠ [] ∧ !t.contains (String.ofList before) then
    match makeAfter t before with
    | (t, none) | (t, some (.fileExists _)) =>
      if last = ['.'] then (t, none) else t.ensureDirectory (String.ofList path)
    | (t, some e) => (t, some e)
  else t.ensureDirectory (String.ofList path)
termination_by path.length
decreasing_by
  rename_i h
  have k : 0 < (Path.cutLast path).2.length := List.length_pos_iff.mpr h.1
  have := Path.length_cutLast path
  omega

/-- Makes the directory of a path from its start: the first directory that is not there is tried
first. -/
def makeFromStart (t : FileTree) (path : String) : FileTree × Option Fault :=
  t.makeAfter path.toList

end OnlineLearning.FileTree
