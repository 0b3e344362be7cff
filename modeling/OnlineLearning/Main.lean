import OnlineLearning.CommandLine.Program

/-! # The command line

The first argument names a program, the others are its own. The files that a program may look at are
taken from the disk before it runs, and what it changed is put back after. -/

namespace OnlineLearning.CommandLine

/-- The path of a place on the disk. -/
def diskPath (place : List String) : String := Path.ofNames "/" place

/-- Takes a place of the disk into a tree, if something is there. -/
def takePlace (tree : FileTree) (place : List String) : IO FileTree := do
  let path := (← IO.currentDir) / diskPath place
  if place.isEmpty then return tree
  if ← path.isDir then return tree.put place .directory
  if ← path.pathExists then return tree.put place (.file (← IO.FS.readFile path))
  return tree

/-- Takes a path of the disk into a tree, with all that its steps lead through. -/
def takePath (tree : FileTree) (path : String) : IO FileTree := do
  let start := if Path.isAbsolute path then [] else tree.start
  let steps := Path.steps path
  (List.range steps.length).foldlM
    (fun tree i => takePlace tree ((steps.take (i + 1)).foldl Path.step start)) tree

/-- Takes what is given as a path into a tree; a blank leads nowhere. -/
def takeGiven (tree : FileTree) : Given String → IO FileTree
  | .value path => takePath tree path
  | .blank => return tree

/-- Takes a directory of the disk into a tree, with the files of one name in the directories below.
-/
def takeSummaries (tree : FileTree) (base name : String) : IO FileTree := do
  let tree ← takePath tree base
  let directory := (← IO.currentDir) / base
  if ← directory.isDir then
    (← directory.readDir).foldlM
      (fun tree entry => takePath tree (Path.join (Path.join base entry.fileName) name)) tree
  else return tree

/-- A tree that starts where the process is. -/
def startingTree : IO FileTree := do
  let here ← IO.currentDir
  takePath { start := Path.place [] here.toString } here.toString

/-- Puts on the disk what a tree has and an earlier one has not. -/
def putChanges (tree earlier : FileTree) : IO Unit := do
  for (place, node) in tree.changesFrom earlier do
    match node with
    | .directory => IO.FS.createDirAll (diskPath place)
    | .file content => IO.FS.writeFile (diskPath place) content

/-- Whether a notice is shown at a level of the log. -/
def isShown (level : String) (n : Notice) : Bool :=
  n.severity = .warning || level.toUpper = "DEBUG"

/-- Ends a program: its changes are put on the disk, and what it has to say is printed. -/
def conclude {α : Type} (level : String) (x : Execution α) (earlier : FileTree) : IO UInt32 := do
  putChanges x.files earlier
  for n in x.notices do
    if isShown level n then IO.eprintln n.message
  IO.print x.printed
  match x.result with
  | .ok _ => return 0
  | .error e =>
    IO.eprintln e.message
    return 1

def seconds : IO Double := do
  return Number.ofRatio (← IO.monoNanosNow) 1000000000

def replayProgram (s : Replay.Settings) : IO UInt32 := do
  let tree ← takeGiven (← startingTree) s.trace
  let tree ← match s.destination with
    | .error _ => pure tree
    | .ok (directory, _) =>
      ["model.csv", "summary.txt"].foldlM
        (fun tree name => takePath tree (Path.join directory name)) tree
  let start ← seconds
  let x ← IO.lazyPure fun _ => s.replay tree
  let finish ← seconds
  conclude (s.logLevel.getD "WARNING") (Replay.conclude (finish - start) x) tree

def syntheticProgram (s : Synthetic.Settings) : IO UInt32 := do
  let tree ← takeGiven (← startingTree) s.out
  conclude "WARNING" (s.run tree) tree

def compareProgram (base : Given String) : IO UInt32 := do
  let tree ← startingTree
  let tree ← match base with
    | .blank => pure tree
    | .value base =>
      takePath (← takeSummaries tree base "summary.txt") (Path.join base "compare.csv")
  conclude "WARNING" (Compare.run base tree) tree

/-- Runs a program if its settings could be read. -/
def start {α : Type} (name : String) (manual : Manual) (settings : Except Stop α)
    (run : α → IO UInt32) : IO UInt32 := do
  match settings with
  | .ok s => run s
  | .error .help =>
    IO.print (manual.text name)
    return 0
  | .error (.fault e) =>
    IO.eprintln (name ++ ": error: " ++ e.message)
    return 2

end OnlineLearning.CommandLine

open OnlineLearning.CommandLine in
/-- Runs the program that the first argument names. -/
def main (arguments : List String) : IO UInt32 := do
  match arguments with
  | "replay" :: rest => start "replay" replayManual (replaySettings rest) replayProgram
  | "generate" :: rest => start "generate" syntheticManual (syntheticSettings rest) syntheticProgram
  | "compare" :: rest => start "compare" compareManual (compareBase rest) compareProgram
  | _ =>
    IO.eprintln "the first argument must be one of: replay, generate, compare"
    return 2
