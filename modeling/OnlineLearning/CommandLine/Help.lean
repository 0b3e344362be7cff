import OnlineLearning.CommandLine.Switch
import OnlineLearning.Text.Fill

/-! # Help

The help of a program shows how it is called, what it is for, and what its switches do. A switch
shows the name of its value in capitals, or the choices for it in braces. What a switch does stands
in a column of its own, beside the names of the switch if they are short enough, else below them. -/

namespace OnlineLearning.CommandLine

/-- What the help of a program tells. -/
structure Manual where
  purpose : String
  switches : List Switch

def helpWidth : Nat := 78

/-- Where the column of what switches do starts at most. -/
def helpColumn : Nat := 24

def indented (count : Nat) (cs : List Char) : List Char := List.replicate count ' ' ++ cs

/-- Lines after a head, the first beside it and the others in the column where the first starts. -/
def hang (head : List Char) : List (List Char) → List (List Char)
  | [] => [head]
  | first :: rest => (head ++ first) :: rest.map (indented head.length)

namespace Switch

/-- What stands for the value of a switch: its choices, or its first name in capitals. -/
def valueName (s : Switch) : List Char :=
  match s.takes with
  | .choice among => '\x7b' :: Text.joinWith [','] (among.map String.toList) ++ ['\x7d']
  | _ =>
    ((s.names.headD "").toList.dropWhile (· = '-')).map fun c => if c = '-' then '_' else c.toUpper

def named (s : Switch) (name : String) : List Char :=
  if s.isBare then name.toList else name.toList ++ ' ' :: s.valueName

/-- How a switch is used; brackets say that it can be left out. -/
def usage (s : Switch) : List Char :=
  let text := s.named (s.names.headD "")
  if s.required then text else '[' :: text ++ [']']

def heading (s : Switch) : List Char := indented 2 (Text.commaSeparated (s.names.map s.named))

/-- The lines on a switch, with what it does at a column. -/
def entry (column : Nat) (s : Switch) : List (List Char) :=
  let lines := Text.fillText (helpWidth - column) s.about.toList
  if lines = [] then [s.heading]
  else if s.heading.length + 2 ≤ column then hang (s.heading.rightpad column ' ') lines
  else s.heading :: lines.map (indented column)

end Switch

namespace Manual

def allSwitches (m : Manual) : List Switch := Switch.help :: m.switches

/-- The lines on how a program is called that has this name. -/
def usage (m : Manual) (name : String) : List (List Char) :=
  let head := "usage: ".toList ++ name.toList ++ [' ']
  hang head
    ((Text.fill (helpWidth - head.length) (m.allSwitches.map Switch.usage)).map Text.unwords)

def column (m : Manual) : Nat :=
  min helpColumn ((m.allSwitches.map fun s => s.heading.length).foldl max 0 + 2)

def text (m : Manual) (name : String) : String :=
  let lines := m.usage name ++ [[]] ++ Text.fillText helpWidth m.purpose.toList ++
    [[], "options:".toList] ++ m.allSwitches.flatMap (Switch.entry m.column)
  String.ofList (lines.flatMap fun line => line ++ ['\n'])

end Manual

end OnlineLearning.CommandLine
