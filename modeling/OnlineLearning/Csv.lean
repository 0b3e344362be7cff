import OnlineLearning.Fault

/-! # Comma separated records

A record is a line of fields with commas between them, ended by a carriage return and a line feed.
Fields that hold a comma, a quote or a line break stand between quotes, and a quote inside is
written twice. `read` is the way back; it takes no fields beyond a limit. Records are texts in
memory, and a file takes their lines up to the first that cannot be encoded. -/

namespace OnlineLearning.Csv

/-- Whether a code point makes quotes necessary. -/
def isSpecial (p : CodePoint) : Bool :=
  p = .char ',' || p = .char '"' || p = .char '\r' || p = .char '\n'

/-- The code points of a field between quotes. -/
def escape (field : CodePoints) : CodePoints :=
  field.flatMap fun p => if p = .char '"' then [.char '"', .char '"'] else [p]

/-- A field between quotes. -/
def enclosed (s : CodePoints) : CodePoints := .char '"' :: escape s ++ [.char '"']

/-- A field as it is written. -/
def field (s : CodePoints) : CodePoints := if s.any isSpecial then enclosed s else s

/-- The end of a record. -/
def recordEnd : CodePoints := [.char '\r', .char '\n']

def fields : List CodePoints → CodePoints
  | [] => recordEnd
  | [s] => field s ++ recordEnd
  | s :: rest => field s ++ .char ',' :: fields rest

/-- A record as it is written. The quotes of an only field that is empty tell it from a record without fields. -/
def record : List CodePoints → CodePoints
  | [[]] => enclosed [] ++ recordEnd
  | ss => fields ss

def table (records : List (List CodePoints)) : CodePoints := records.flatMap record

/-! ### Tables in files -/

/-- The characters of a line, if it can be encoded. -/
def encode (line : CodePoints) : Except Fault (List Char) :=
  match line.chars? with
  | some cs => .ok cs
  | none =>
    let rest := line.dropWhile fun p => !p.isHalf
    .error (.notEncodable (line.length - rest.length) (rest.takeWhile CodePoint.isHalf))

/-- What lines leave in a file: the characters of those before the first that cannot be encoded, and its fault. -/
def encodeLines : List CodePoints → List Char × Option Fault
  | [] => ([], none)
  | line :: lines =>
    match encode line with
    | .error e => ([], some e)
    | .ok cs =>
      let (rest, fault?) := encodeLines lines
      (cs ++ rest, fault?)

/-- What records leave in a file. -/
def fileText (records : List (List CodePoints)) : String × Option Fault :=
  let (cs, fault?) := encodeLines (records.map record)
  (String.ofList cs, fault?)

/-! ### Reading -/

/-- Where a reader stands. -/
inductive State where
  | recordStart
  | fieldStart
  | plain
  | quoted
  | quoteInQuoted
  | afterReturn
deriving DecidableEq

/-- What a reader has read: whole records, the fields of the record it is in, and the code points of
the field it is in, all last first. -/
structure Reading where
  state : State := .recordStart
  records : List (List CodePoints) := []
  fields : List CodePoints := []
  points : CodePoints := []

namespace Reading

def endField (r : Reading) (next : State) : Reading :=
  { r with state := next, fields := r.points.reverse :: r.fields, points := [] }

/-- Ends a record with the fields that it has. -/
def closeRecord (r : Reading) (next : State) : Reading :=
  { r with state := next, records := r.fields.reverse :: r.records, fields := [] }

def endRecord (r : Reading) (next : State) : Reading := (r.endField next).closeRecord next

/-- Takes up a code point that no quotes protect. -/
def takePlain (r : Reading) (p : CodePoint) : Reading :=
  if p = .char ',' then r.endField .fieldStart
  else if p = .char '\r' then r.endRecord .afterReturn
  else if p = .char '\n' then r.endRecord .recordStart
  else { r with state := .plain, points := p :: r.points }

/-- Takes up a code point at the start of a field. -/
def takeFirst (r : Reading) (p : CodePoint) : Reading :=
  if p = .char '"' then { r with state := .quoted } else r.takePlain p

/-- Takes up a code point at the start of a record; a blank line is a record without fields. -/
def takeStart (r : Reading) (p : CodePoint) : Reading :=
  if p = .char '\r' then r.closeRecord .afterReturn
  else if p = .char '\n' then r.closeRecord .recordStart
  else r.takeFirst p

def take (r : Reading) (p : CodePoint) : Reading :=
  match r.state with
  | .recordStart => r.takeStart p
  | .fieldStart => r.takeFirst p
  | .plain => r.takePlain p
  | .quoted =>
    if p = .char '"' then { r with state := .quoteInQuoted } else { r with points := p :: r.points }
  | .quoteInQuoted =>
    if p = .char '"' then { r with state := .quoted, points := p :: r.points } else r.takePlain p
  | .afterReturn => if p = .char '\n' then { r with state := .recordStart } else r.takeStart p

/-- The records read, at the end of the text. -/
def finish (r : Reading) : List (List CodePoints) :=
  match r.state with
  | .recordStart | .afterReturn => r.records.reverse
  | _ => (r.endRecord .recordStart).records.reverse

end Reading

/-- The records of a text, with fields of any length. -/
def records (text : CodePoints) : List (List CodePoints) :=
  (text.foldl Reading.take {}).finish

/-- A field is longer than a reader takes. -/
structure LongField where
  limit : Nat
deriving DecidableEq

def LongField.message (e : LongField) : String := s!"field larger than field limit ({e.limit})"

/-- Takes up a code point, unless the field it is in gets too long. -/
def Reading.takeWithin (limit : Nat) (r : Reading) (p : CodePoint) : Except LongField Reading :=
  if limit < (r.take p).points.length then .error ⟨limit⟩ else .ok (r.take p)

/-- The greatest length of a field that is read when nothing is said. -/
def fieldLimit : Nat := 131072

/-- Reads the records of a text, up to the first field that is too long. -/
def read (text : CodePoints) (limit : Nat := fieldLimit) : Except LongField (List (List CodePoints)) :=
  Reading.finish <$> text.foldlM (Reading.takeWithin limit) {}

end OnlineLearning.Csv
