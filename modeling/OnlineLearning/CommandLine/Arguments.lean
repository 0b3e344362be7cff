import OnlineLearning.CommandLine.Switch

/-! # The arguments of a program

First every argument is recognised: as a switch by its full name or by the start of a long one, with
a value after an equals sign if there is one, as the mark after which nothing is a switch, or as a
plain value. Negative numbers and arguments with a space are values even with a dash in front. Then
the switches take their values from left to right, and what no switch takes is left over. Switches
of one letter that stand alone can share a dash. -/

namespace OnlineLearning.CommandLine

inductive Word where
  | mark
  | plain (argument : String)
  /-- A switch without a value, or a long name and the value after an equals sign. -/
  | known (switch : Switch) (value : Option String)
  /-- A name of one letter and what follows it in its argument. -/
  | attached (switch : Switch) (tail : String)
  | unknown (argument : String)

/-- The argument of a word that is no switch. -/
def Word.leftover : Word → List String
  | .mark => [endMark]
  | .plain a => [a]
  | .unknown a => [a]
  | _ => []

/-- The part before the first equals sign and the part after it, if there is one. -/
def splitValue (cs : List Char) : String × Option String :=
  let name := cs.takeWhile (· ≠ '=')
  match cs.drop name.length with
  | [] => (String.ofList name, none)
  | _ :: value => (String.ofList name, some (String.ofList value))

/-- Whether an argument is a negative number in plain digits. -/
def isNegativeNumber : List Char → Bool
  | '-' :: cs =>
    let whole := cs.takeWhile Text.isDigit
    let rest := cs.dropWhile Text.isDigit
    -- a line feed may follow at the very end
    let ends (cs : List Char) := cs = [] || cs = ['\n']
    (!whole.isEmpty && ends rest) ||
      (rest.head? = some '.' &&
        !(rest.tail.takeWhile Text.isDigit).isEmpty && ends (rest.tail.dropWhile Text.isDigit))
  | _ => false

def isLong (name : String) : Bool := name.toList.take 2 = ['-', '-']

def nameTable (switches : List Switch) : List (String × Switch) :=
  switches.flatMap fun s => s.names.map fun n => (n, s)

def switchNamed? (table : List (String × Switch)) (name : String) : Option Switch :=
  (table.find? fun e => e.1 = name).map Prod.snd

/-- The names that an argument may be short for, with the words that it then is. -/
def abbreviations (table : List (String × Switch)) (argument : String) : List (String × Word) :=
  let cs := argument.toList
  if isLong argument then
    let (start, value) := splitValue cs
    (table.filter fun e => start.toList.isPrefixOf e.1.toList).map fun e => (e.1, .known e.2 value)
  else
    table.filterMap fun e =>
      if e.1.toList = cs.take 2 then some (e.1, .attached e.2 (String.ofList (cs.drop 2)))
      else if cs.isPrefixOf e.1.toList then some (e.1, .known e.2 none)
      else none

def recognize (table : List (String × Switch)) (argument : String) : Except UsageFault Word :=
  let cs := argument.toList
  if cs.head? ≠ some '-' then .ok (.plain argument)
  else
    match switchNamed? table argument with
    | some s => .ok (.known s none)
    | none =>
      if cs.length = 1 then .ok (.plain argument)
      else
        match splitValue cs with
        | (name, value) =>
          match value.isSome, switchNamed? table name with
          | true, some s =>
            if isLong name then .ok (.known s value) else .ok (.attached s (value.getD ""))
          | _, _ =>
            match abbreviations table argument with
            | [(_, word)] => .ok word
            | [] =>
              if isNegativeNumber cs || cs.contains ' ' then .ok (.plain argument)
              else .ok (.unknown argument)
            | several => .error (.ambiguous argument (several.map Prod.fst))

/-- Recognises all arguments; after the mark all are plain. -/
def recognizeAll (table : List (String × Switch)) : List String → Except UsageFault (List Word)
  | [] => .ok []
  | a :: rest =>
    if a = endMark then .ok (.mark :: rest.map .plain)
    else do
      let word ← recognize table a
      return word :: (← recognizeAll table rest)

/-- Why the arguments of a program give no settings. -/
inductive Stop where
  | help
  | fault (e : UsageFault)
deriving DecidableEq

/-- The settings that arguments make, in order, and what is left over. -/
structure Parsed where
  settings : List (Switch × Setting) := []
  leftovers : List String := []

def Parsed.withSettings (xs : List (Switch × Setting)) (p : Parsed) : Parsed :=
  { p with settings := xs ++ p.settings }

def bareSetting (s : Switch) : Except Stop Setting :=
  if s.takes = .help then .error .help else .ok .on

/-- The switches of the letters behind a switch of one letter; all have to stand alone. -/
def lettersBehind (table : List (String × Switch)) (s : Switch) :
    List Char → Except UsageFault (List Switch)
  | [] => .ok []
  | c :: cs =>
    match (switchNamed? table (String.ofList ['-', c])).filter Switch.isBare with
    | some next => (next :: ·) <$> lettersBehind table next cs
    | none => .error (.unwantedValue s (String.ofList (c :: cs)))

/-- What a switch of one letter sets together with what follows it: its value, or more switches. -/
def attachedSettings (table : List (String × Switch)) (s : Switch) (tail : String) :
    Except Stop (List (Switch × Setting)) :=
  if !s.isBare || tail.isEmpty then do
    return [(s, ← (s.read tail).mapError .fault)]
  else do
    let more ← (lettersBehind table s tail.toList).mapError .fault
    (s :: more).mapM fun s => (s, ·) <$> bareSetting s

/-- Lets the switches take their values from left to right. -/
def takeAll (table : List (String × Switch)) : List Word → Except Stop Parsed
  | [] => .ok {}
  | .known s (some value) :: rest => do
    let x ← (s.read value).mapError .fault
    return (← takeAll table rest).withSettings [(s, x)]
  | .attached s tail :: rest => do
    let xs ← attachedSettings table s tail
    return (← takeAll table rest).withSettings xs
  | .known s none :: rest =>
    if s.isBare then do
      let x ← bareSetting s
      return (← takeAll table rest).withSettings [(s, x)]
    else
      match rest with
      | .plain value :: rest => do
        let x ← (s.read value).mapError .fault
        return (← takeAll table rest).withSettings [(s, x)]
      | _ => .error (.fault (.missingValue s))
  | word :: rest => do
    let p ← takeAll table rest
    return { p with leftovers := word.leftover ++ p.leftovers }

/-- The settings of a program's arguments. Required switches must be there, and nothing may be left
over. -/
def parse (switches : List Switch) (arguments : List String) :
    Except Stop (List (Switch × Setting)) := do
  let switches := Switch.help :: switches
  let table := nameTable switches
  let words ← (recognizeAll table arguments).mapError .fault
  let p ← takeAll table words
  let missing := switches.filter fun s => s.required && !p.settings.any fun e => e.1 = s
  if !missing.isEmpty then throw (.fault (.missingSwitches missing))
  if !p.leftovers.isEmpty then throw (.fault (.unrecognized p.leftovers))
  return p.settings

def last? (settings : List (Switch × Setting)) (s : Switch) : Option Setting :=
  (settings.reverse.find? fun e => e.1 = s).map Prod.snd

end OnlineLearning.CommandLine
