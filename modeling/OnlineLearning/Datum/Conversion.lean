import OnlineLearning.Fault
import OnlineLearning.Decimal.Reading

/-! # Data as numbers, keys and sequences

The conversions that can fail: to a float, to a key of a table, and to the items it goes through. -/

namespace OnlineLearning

/-- A datum without mutable parts; only such data are keys of tables. -/
structure Key where
  datum : Datum
  immutable : datum.mutablePart? = none

namespace Key

/-- Whether two keys lead to the same place of a table. -/
def same (a b : Key) : Bool := a.datum.agrees b.datum

def ofText (s : CodePoints) : Key := ⟨.text s, rfl⟩

end Key

namespace Datum

def toKey (d : Datum) : Except Fault Key :=
  match h : d.mutablePart? with
  | none => .ok ⟨d, h⟩
  | some kind => .error (.notAKey kind)

/-- The float of an integer, if one is near enough. -/
def floatOfInt (n : Int) : Except Fault Double :=
  match (Number.ofInt n : Double) with
  | .infinite _ => .error .integerTooLarge
  | x => .ok x

/-- The float that a datum is or writes. -/
def toFloat : Datum → Except Fault Double
  | bool b => .ok (if b then 1 else 0)
  | int n => floatOfInt n
  | float x _ => .ok x
  | text s =>
    match s.chars?.bind Number.read? with
    | some x => .ok x
    | none => .error (.notANumeral s)
  | d => .error (.notANumber d.kind)

/-- What a datum goes through: the items of a sequence, the characters of a text, the keys of a
dictionary. -/
def items : Datum → Except Fault (List Datum)
  | tuple xs => .ok xs
  | list xs => .ok xs
  | text s => .ok (s.map fun p => text [p])
  | dict entries => .ok (entries.map Prod.fst)
  | d => .error (.notIterable d.kind)

end Datum

end OnlineLearning
