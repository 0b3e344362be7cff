import OnlineLearning.Feature.Basic

/-! # Tokens of other kinds

A caller may have values of kinds that no data format has, and use them as tokens, or as the keys and values of
pairs. All that is known of such a kind is how its values are displayed, which floats they are, and which data they
equal. They can be keys, and are no tuples when they stand alone. -/

namespace OnlineLearning

/-- What is known of the values of a kind. -/
structure Foreign (α : Type) where
  display? : α → Option CodePoints
  float? : α → Option Double
  equals : α → Datum → Bool

namespace Foreign

/-- A datum, or a value of another kind. -/
inductive Item (α : Type) where
  | datum (d : Datum)
  | other (x : α)

/-- A token, where pairs of items are told from others. -/
inductive Token (α : Type) where
  | single (item : Item α)
  | pair (key value : Item α)

/-- A feature whose key may be of another kind. -/
structure Valued (α : Type) where
  key : Item α
  value : Double

variable {α : Type} (kind : Foreign α)

def floatOf? : Item α → Option Double
  | .datum d => d.toFloat.toOption
  | .other x => kind.float? x

def Item.isMutable : Item α → Bool
  | .datum d => d.kind.isMutable
  | .other _ => false

/-- The feature that a token writes, if it writes one. -/
def read? : Token α → Option (Valued α)
  | .single (.datum d) => (Feature.ofToken d).toOption.join.map fun f => ⟨.datum f.key, f.value⟩
  | .single (.other x) => some ⟨.other x, 1⟩
  | .pair key value => if key.isMutable then none else (kind.floatOf? value).map (⟨key, ·⟩)

end Foreign

end OnlineLearning
