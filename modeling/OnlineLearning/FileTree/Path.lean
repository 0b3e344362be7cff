import OnlineLearning.Text.Parts

/-! # Paths

A path is a text of steps between strokes. The steps are taken one after another, from the top of a
tree if there is a stroke in front, else from where relative paths start: a point stays, two points
go up, and every other step goes down to what has its name. A place of a tree is the list of the
names that lead to it from the top. -/

namespace OnlineLearning.Path

/-- The steps of a path: what stands between its strokes, if anything does. -/
def steps (path : String) : List String :=
  ((Text.splitAt '/' path.toList).map String.ofList).filter fun s => s ≠ ""

/-- Whether a path starts at the top. -/
def isAbsolute (path : String) : Bool := path.toList.head? = some '/'

/-- Whether a path ends in a stroke; such a path can only be that of a directory. -/
def endsInStroke (path : String) : Bool := path.toList.getLast? = some '/'

/-- The place that a step leads to. -/
def step (place : List String) (s : String) : List String :=
  if s = "." then place else if s = ".." then place.dropLast else place ++ [s]

/-- The place that a path leads to, where each of its steps can be taken. -/
def place (start : List String) (path : String) : List String :=
  (steps path).foldl step (if isAbsolute path then [] else start)

/-- The path of the names that lead on from a root: strokes, or nothing. -/
def ofNames (root : String) (names : List String) : String :=
  if root = "" ∧ names = [] then "." else root ++ "/".intercalate names

/-- The root of a path in normal form; two strokes are kept apart from any other number. -/
def root (path : String) : String :=
  match (path.toList.takeWhile (· = '/')).length with
  | 0 => ""
  | 2 => "//"
  | _ => "/"

/-- The steps of a path but for those that stay where they are. -/
def names (path : String) : List String := (steps path).filter fun s => s ≠ "."

/-- A path continued by another. -/
def join (path next : String) : String :=
  if path.isEmpty || endsInStroke path then path ++ next else path ++ "/" ++ next

/-- What stands before the last stroke of a path and what stands behind it. Strokes at the end of
the first part are left out, unless it holds nothing else. -/
def cut (path : List Char) : List Char × List Char :=
  let behind := path.reverse.takeWhile (· ≠ '/')
  let before := path.reverse.dropWhile (· ≠ '/')
  let bare := before.dropWhile (· = '/')
  ((if bare = [] then before else bare).reverse, behind.reverse)

theorem length_cut (path : List Char) :
    (cut path).1.length + (cut path).2.length ≤ path.length := by
  have h := congrArg List.length
    (List.takeWhile_append_dropWhile (p := (· ≠ '/')) (l := path.reverse))
  have k := congrArg List.length (List.takeWhile_append_dropWhile (p := (· = '/'))
    (l := path.reverse.dropWhile (· ≠ '/')))
  simp only [List.length_append, List.length_reverse] at h k
  simp only [cut]
  split <;> simp only [List.length_reverse] <;> omega

/-- A path before its last step, and that step; strokes at the end of the path do not matter. -/
def cutLast (path : List Char) : List Char × List Char :=
  if (cut path).2 = [] then cut (cut path).1 else cut path

theorem length_cutLast (path : List Char) :
    (cutLast path).1.length + (cutLast path).2.length ≤ path.length := by
  have h := length_cut path
  have k := length_cut (cut path).1
  simp only [cutLast]
  split <;> omega

/-- The path of the directory that a path stands in; empty for a bare name. -/
def directory (path : String) : String := String.ofList (cut path.toList).1

end OnlineLearning.Path
