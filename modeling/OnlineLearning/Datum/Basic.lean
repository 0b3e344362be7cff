import OnlineLearning.Binary.Arithmetic
import OnlineLearning.Binary.Order
import OnlineLearning.Text.CodePoint

/-! # Data of any kind

Labels, feature keys and the tokens of an example are data of any kind: they come from a data format
and are only compared, printed and converted. Two comparisons are kept apart. `agrees` is the one
that finds a key again and compares the items of a container: a not-a-number agrees with itself and
no other, so each has a `mark`. `equals` is the comparison of two data as numbers: it is `agrees`,
but for not-a-number, which equals nothing. -/

namespace OnlineLearning

/-- A datum. The `mark` of a float tells one not-a-number from another, and means nothing on other
floats. -/
inductive Datum where
  | null
  | bool (b : Bool)
  | int (n : Int)
  | float (x : Double) (mark : Nat)
  | text (s : CodePoints)
  | tuple (items : List Datum)
  | list (items : List Datum)
  | dict (entries : List (Datum × Datum))

instance : Inhabited Datum := ⟨.null⟩

namespace Datum

inductive Kind where
  | null
  | bool
  | int
  | float
  | text
  | tuple
  | list
  | dict
deriving DecidableEq

def kind : Datum → Kind
  | null => .null
  | bool _ => .bool
  | int _ => .int
  | float _ _ => .float
  | text _ => .text
  | tuple _ => .tuple
  | list _ => .list
  | dict _ => .dict

def Kind.name : Kind → String
  | .null => "NoneType"
  | .bool => "bool"
  | .int => "int"
  | .float => "float"
  | .text => "str"
  | .tuple => "tuple"
  | .list => "list"
  | .dict => "dict"

/-- Whether a kind can be changed in place, and so cannot be a key. -/
def Kind.isMutable : Kind → Bool
  | .list | .dict => true
  | _ => false

def isNull : Datum → Bool
  | null => true
  | _ => false

/-- What counts as a number: integers, truth values as zero and one, and floats. -/
inductive Quantity where
  | whole (n : Int)
  | real (x : Double) (mark : Nat)

/-- The number that a datum is. -/
def quantity? : Datum → Option Quantity
  | bool b => some (.whole (if b then 1 else 0))
  | int n => some (.whole n)
  | float x m => some (.real x m)
  | _ => none

/-- Exact comparison of numbers; a not-a-number agrees with the one of its mark. -/
def Quantity.agrees : Quantity → Quantity → Bool
  | .whole a, .whole b => a == b
  | .whole a, .real y _ => y.isInt a
  | .real x _, .whole b => x.isInt b
  | .real x m, .real y k => x.same y || (x.isNaN && y.isNaN && m == k)

/-- Comparison of the data that are not containers. -/
def agreesPlainly (a b : Datum) : Bool :=
  match a, b with
  | null, null => true
  | text s, text t => s == t
  | a, b =>
    match a.quantity?, b.quantity? with
    | some p, some q => p.agrees q
    | _, _ => false

mutual

/-- Whether two data are the same key, or the same item of a container. -/
def agrees : Datum → Datum → Bool
  | tuple xs, tuple ys => agreesItems xs ys
  | list xs, list ys => agreesItems xs ys
  | dict xs, dict ys => xs.length == ys.length && agreesEntries xs ys
  | a, b => agreesPlainly a b

def agreesItems : List Datum → List Datum → Bool
  | [], [] => true
  | x :: xs, y :: ys => agrees x y && agreesItems xs ys
  | _, _ => false

/-- Whether every entry has an entry of the other list with its key and its value. -/
def agreesEntries : List (Datum × Datum) → List (Datum × Datum) → Bool
  | [], _ => true
  | (k, v) :: xs, ys =>
    (match ys.find? fun y => agrees k y.1 with
      | some y => agrees v y.2
      | none => false) && agreesEntries xs ys

end

/-- Whether two data are equal as values; a not-a-number by itself equals nothing. -/
def equals : Datum → Datum → Bool
  | float x _, float y _ => x.same y
  | a, b => agrees a b

/-- Entries with the value of `key` replaced, or put at the end. The key that came first stays. -/
def setEntry (key value : Datum) : List (Datum × Datum) → List (Datum × Datum)
  | [] => [(key, value)]
  | e :: es => if e.1.agrees key then (e.1, value) :: es else e :: setEntry key value es

def ofEntries (entries : List (Datum × Datum)) : Datum :=
  dict (entries.foldl (fun es e => setEntry e.1 e.2 es) [])

mutual

/-- The kind of the first mutable datum in a key, if there is one. -/
def mutablePart? : Datum → Option Kind
  | tuple items => mutablePartOfItems? items
  | list _ => some .list
  | dict _ => some .dict
  | _ => none

def mutablePartOfItems? : List Datum → Option Kind
  | [] => none
  | x :: xs =>
    match mutablePart? x with
    | some k => some k
    | none => mutablePartOfItems? xs

end

end Datum

end OnlineLearning
