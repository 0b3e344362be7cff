import OnlineLearning.Fault
import OnlineLearning.FileTree.Path

/-! # Trees of files

The files that a program reads and writes are a value: directories and texts at places. A path is
followed step by step through directories; what goes wrong names the path as it was given. What was
written at a path is read there, which is `read_write`. -/

namespace OnlineLearning

/-- What stands at a place of a tree. -/
inductive FileTree.Node where
  | directory
  | file (content : String)
deriving DecidableEq

/-- The places of a tree below its top, and the one where relative paths start. -/
structure FileTree where
  nodes : List (List String × FileTree.Node) := []
  start : List String := []
deriving DecidableEq

namespace FileTree

/-- The tree of an empty directory where relative paths start. -/
def startingAt (place : List String) : FileTree where
  nodes := (List.range place.length).map fun i => (place.take (i + 1), .directory)
  start := place

/-- What stands at a place. The top is always a directory. -/
def node? (t : FileTree) (place : List String) : Option Node :=
  if place.isEmpty then some .directory else (t.nodes.find? fun n => n.1 = place).map Prod.snd

def putNode (place : List String) (node : Node) :
    List (List String × Node) → List (List String × Node)
  | [] => [(place, node)]
  | n :: ns => if n.1 = place then (place, node) :: ns else n :: putNode place node ns

/-- The tree with a node at a place. -/
def put (t : FileTree) (place : List String) (node : Node) : FileTree :=
  { t with nodes := putNode place node t.nodes }

theorem find?_putNode (place p : List String) (node : Node) (ns : List (List String × Node)) :
    ((putNode place node ns).find? fun n => n.1 = p).map Prod.snd =
      if p = place then some node else (ns.find? fun n => n.1 = p).map Prod.snd := by
  induction ns with
  | nil => by_cases h : p = place <;> simp [putNode, h, eq_comm]
  | cons n ns ih =>
    by_cases hn : n.1 = place
    · by_cases h : p = place <;> simp [putNode, hn, h, eq_comm]
    · by_cases h : n.1 = p
      · have hp : p ≠ place := fun e => hn (h.trans e)
        simp [putNode, h, hp]
      · simpa [putNode, hn, h] using ih

theorem node?_put (t : FileTree) {place : List String} (h : place ≠ []) (node : Node)
    (p : List String) :
    (t.put place node).node? p = if p = place then some node else t.node? p := by
  by_cases hp : p = []
  · subst hp
    simp [node?, Ne.symm h]
  · simp only [node?, List.isEmpty_iff, hp, if_false]
    exact find?_putNode place p node t.nodes

/-- The greatest number of bytes of a name. -/
def nameLimit : Nat := 255

/-- The greatest number of bytes of a path. -/
def pathLimit : Nat := 4095

/-- Takes steps from a place; each has to start in a directory. -/
def follow (t : FileTree) (path : String) : (place : List String) → List String →
    Except Fault (List String)
  | place, [] => .ok place
  | place, s :: ss =>
    match t.node? place with
    | none => .error (.missingFile path)
    | some (.file _) => .error (.notDirectory path)
    | some .directory =>
      if s.utf8ByteSize > nameLimit then .error (.nameTooLong path)
      else follow t path (Path.step place s) ss

/-- The place of a path, whether or not something stands there. -/
def locate (t : FileTree) (path : String) : Except Fault (List String) :=
  if path.toList.contains '\x00' then .error .nullInPath
  else if path.isEmpty then .error (.missingFile path)
  else if path.utf8ByteSize > pathLimit then .error (.nameTooLong path)
  else t.follow path (if Path.isAbsolute path then [] else t.start) (Path.steps path)

/-- What stands at a path. -/
def look (t : FileTree) (path : String) : Except Fault Node := do
  match t.node? (← t.locate path) with
  | none => throw (.missingFile path)
  | some .directory => return .directory
  | some (.file content) =>
    if Path.endsInStroke path then throw (.notDirectory path) else return .file content

def contains (t : FileTree) (path : String) : Bool :=
  match t.look path with
  | .ok _ => true
  | .error _ => false

def isDirectory (t : FileTree) (path : String) : Bool :=
  match t.look path with
  | .ok .directory => true
  | _ => false

/-- The text of the file at a path, if there is a file. -/
def text? (t : FileTree) (path : String) : Option String :=
  match t.look path with
  | .ok (.file content) => some content
  | _ => none

def read (t : FileTree) (path : String) : Except Fault String := do
  match ← t.look path with
  | .directory => throw (.isDirectory path)
  | .file content => return content

/-- Writes a text to the file at a path, which is made if its directory is there. -/
def write (t : FileTree) (path : String) (content : String) : Except Fault FileTree := do
  let place ← t.locate path
  if Path.endsInStroke path || t.node? place = some .directory then throw (.isDirectory path)
  return t.put place (.file content)

theorem follow_put {t : FileTree} {path : String} {place : List String}
    (h : t.node? place ≠ some .directory) (node : Node) {steps : List String} :
    ∀ {origin p : List String}, t.follow path origin steps = .ok p →
      (t.put place node).follow path origin steps = .ok p := by
  have hne : place ≠ [] := fun e => h (by simp [node?, e])
  induction steps with
  | nil => exact id
  | cons s ss ih =>
    intro origin p hp
    rw [follow] at hp ⊢
    split at hp
    · simp at hp
    · simp at hp
    · rename_i hd
      have ho : origin ≠ place := fun e => h (e ▸ hd)
      rw [node?_put t hne, if_neg ho, hd]
      split at hp
      · simp at hp
      · rename_i hs
        simpa [hs] using ih hp

theorem locate_put {t : FileTree} {path : String} {place p : List String}
    (h : t.node? place ≠ some .directory) (node : Node) (hp : t.locate path = .ok p) :
    (t.put place node).locate path = .ok p := by
  unfold locate at hp ⊢
  split at hp
  · simp at hp
  · split at hp
    · simp at hp
    · split at hp
      · simp at hp
      · rename_i h₁ h₂ h₃
        simp only [h₁, h₂, h₃, if_false, Bool.false_eq_true]
        exact follow_put h node hp

theorem read_write {t t' : FileTree} {path content : String}
    (h : t.write path content = .ok t') : t'.read path = .ok content := by
  unfold write at h
  cases hp : t.locate path with
  | error e => simp [hp, bind, Except.bind] at h
  | ok place =>
    simp only [hp, bind, Except.bind] at h
    split at h
    · simp [throw, throwThe, MonadExceptOf.throw] at h
    · rename_i hn
      simp only [Bool.or_eq_true, decide_eq_true_eq, not_or, Bool.not_eq_true] at hn
      obtain rfl : t.put place (.file content) = t' := by simpa [pure, Except.pure] using h
      have hne : place ≠ [] := fun e => hn.2 (by simp [node?, e])
      simp [read, look, locate_put hn.2 _ hp, node?_put t hne, hn.1, bind, Except.bind, pure,
        Except.pure]

/-- The names in the directory at a path, in order of code points. -/
def list (t : FileTree) (path : String) : Except Fault (List String) := do
  match ← t.look path with
  | .file _ => throw (.notDirectory path)
  | .directory =>
    let place ← t.locate path
    let names := t.nodes.filterMap fun n =>
      if n.1.dropLast = place then n.1.getLast? else none
    return names.mergeSort fun a b => a ≤ b

def plant (t : FileTree) (path : String) (node : Node) : FileTree :=
  let place := Path.place t.start path
  let leading := (List.range place.length).map place.take
  (leading.foldl (fun t dir => if (t.node? dir).isNone then t.put dir .directory else t) t).put
    place node

/-- The nodes of a tree that are not so in an earlier one. -/
def changesFrom (t earlier : FileTree) : List (List String × Node) :=
  t.nodes.filter fun n => earlier.node? n.1 ≠ some n.2

/-- The files below where relative paths start that are not so in an earlier tree: their paths and
texts. -/
def newTexts (t earlier : FileTree) : List (String × String) :=
  (t.changesFrom earlier).filterMap fun (place, node) =>
    match node with
    | .directory => none
    | .file content =>
      if t.start.isPrefixOf place then
        some (Path.ofNames "" (place.drop t.start.length), content)
      else none

end FileTree

end OnlineLearning
