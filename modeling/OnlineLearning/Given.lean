import OnlineLearning.Fault

/-! # What a switch gives

A switch gives a value, or a blank if the mark that ends the switches stands where its value is due.
A blank is not the same as no switch at all: it takes the place of the default, and is a fault where
the value is needed. -/

namespace OnlineLearning

/-- A value, or a blank in its place. -/
inductive Given (α : Type) where
  | value (x : α)
  | blank
deriving DecidableEq

namespace Given

variable {α : Type}

/-- The value; a blank counts as `default`. -/
def getD (g : Given α) (default : α) : α :=
  match g with
  | value x => x
  | blank => default

/-- The value; a blank is the fault `e`. -/
def orFault (g : Given α) (e : Fault) : Except Fault α :=
  match g with
  | value x => .ok x
  | blank => .error e

theorem orFault_eq_ok_iff {g : Given α} {e : Fault} {x : α} :
    g.orFault e = .ok x ↔ g = value x := by
  cases g <;> simp [orFault]

end Given

end OnlineLearning
