import OnlineLearning.Datum.Conversion
import OnlineLearning.Datum.Showing

/-! # Features of an example

An example is a sparse vector: a list of features, each a key with a value. Features are written as
tokens. A text token is a name, or a name and a value with a colon between them; a pair is a key and
a value; any other datum that can be a key stands for itself with the value one. Null tokens are
dropped. -/

namespace OnlineLearning

/-- A coordinate of an example that may still turn out to have no usable key. -/
structure Feature where
  key : Datum
  value : Double

namespace Feature

/-- The fault of a bad token. Its message shows the token, and is a fault of its own if that cannot be shown. -/
def refusal (token : Datum) : Fault :=
  if token.hindrance? none = none then .badFeature token else .longInteger

/-- The value that a token gives, where a conversion that fails makes the token a bad one; an
integer beyond all floats stays a fault of its own. -/
def valueIn (token value : Datum) : Except Fault Double :=
  match value.toFloat with
  | .ok x => .ok x
  | .error .integerTooLarge => .error .integerTooLarge
  | .error _ => .error (refusal token)

/-- The feature that a text token writes. -/
def ofText (s : CodePoints) : Except Fault Feature :=
  match Text.splitAt (.char ':') s with
  | [name] => if name.isEmpty then .error (refusal (.text s)) else .ok ⟨.text s, 1⟩
  | [name, value] =>
    if name.isEmpty then .error (refusal (.text s))
    else do return ⟨.text name, ← valueIn (.text s) (.text value)⟩
  | _ => .error (refusal (.text s))

/-- The feature that a token writes; a null token writes none. -/
def ofToken (token : Datum) : Except Fault (Option Feature) :=
  match token with
  | .null => .ok none
  | .text s => some <$> ofText s
  | .tuple [key, value] =>
    if key.kind.isMutable then .error (refusal token)
    else do return some ⟨key, ← valueIn token value⟩
  | .tuple _ | .list _ | .dict _ => .error (refusal token)
  | _ => .ok (some ⟨token, 1⟩)

/-- The feature that a token writes, where so many nested calls are left. There is no answer if they do not reach
for showing a bad token. -/
def ofTokenWithin (calls : Nat) (token : Datum) : Option (Except Fault (Option Feature)) :=
  match ofToken token with
  | .ok feature? => some (.ok feature?)
  | .error .integerTooLarge => some (.error .integerTooLarge)
  | .error e => if token.hindrance? (some calls) = some .depth then none else some (.error e)

/-- The features that a list of tokens writes; the first bad token fails all. -/
def ofTokenList : List Datum → Except Fault (List Feature)
  | [] => .ok []
  | token :: tokens => do
    let feature? ← ofToken token
    let features ← ofTokenList tokens
    return feature?.toList ++ features

def ofTokens (tokens : Datum) : Except Fault (List Feature) :=
  tokens.items >>= ofTokenList

/-- A name with a value behind a colon; the value one is left out. -/
def withValue (name : CodePoints) (value : Datum) : CodePoints :=
  if value.equals (.float 1 0) then name else name ++ .char ':' :: CodePoints.ofChars value.quoted

/-- The token of a key and a value. -/
def tokenText (key value : Datum) : CodePoints := withValue key.display value

def toText (f : Feature) : CodePoints := tokenText f.key (.float f.value 0)

/-- Whether two features have equal keys and equal values. -/
def equals (f g : Feature) : Bool := f.key.agrees g.key && f.value.same g.value

end Feature

/-- A coordinate of an example: a key and a value. -/
structure Coordinate where
  key : Key
  value : Double

/-- The coordinates of features, up to the first whose key cannot be a key, and the fault there. -/
def Feature.coordinates : List Feature → List Coordinate × Option Fault
  | [] => ([], none)
  | f :: fs =>
    match f.key.toKey with
    | .error e => ([], some e)
    | .ok key =>
      let (cs, e?) := coordinates fs
      (⟨key, f.value⟩ :: cs, e?)

theorem Feature.coordinates_cons_of_error {f : Feature} {e : Fault} (fs : List Feature)
    (h : f.key.toKey = .error e) : coordinates (f :: fs) = ([], some e) := by
  rw [coordinates, h]

theorem Feature.coordinates_cons_of_ok {f : Feature} {key : Key} (fs : List Feature) (h : f.key.toKey = .ok key) :
    coordinates (f :: fs) = (⟨key, f.value⟩ :: (coordinates fs).1, (coordinates fs).2) := by
  rw [coordinates, h]

/-- The coordinates of features, if all their keys can be keys. -/
def Feature.toCoordinates (fs : List Feature) : Except Fault (List Coordinate) :=
  match Feature.coordinates fs with
  | (cs, none) => .ok cs
  | (_, some e) => .error e

end OnlineLearning
