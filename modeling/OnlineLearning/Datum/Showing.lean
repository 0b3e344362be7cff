import OnlineLearning.Fault

/-! # Data that can be shown

Not every datum can be shown. An integer of too many digits has no text, and data that stand in one another are
only gone into as deep as nested calls are left. Data are gone through from the front, and the first hindrance
counts. -/

namespace OnlineLearning.Datum

/-- What keeps a datum from being shown. -/
inductive Hindrance where
  | longInteger
  | depth
deriving DecidableEq

mutual

/-- The first hindrance in a datum, where so many nested calls are left, if there is a limit to them. -/
def hindrance? : (calls : Option Nat) → Datum → Option Hindrance
  | some 0, _ => some .depth
  | _, int n => if Fault.digitLimit < (Text.digits n.natAbs).length then some .longInteger else none
  | calls, tuple items | calls, list items => hindranceOfItems? (calls.map Nat.pred) items
  | calls, dict entries => hindranceOfEntries? (calls.map Nat.pred) entries
  | _, null | _, bool _ | _, float _ _ | _, text _ => none

def hindranceOfItems? (calls : Option Nat) : List Datum → Option Hindrance
  | [] => none
  | x :: xs => (hindrance? calls x).or (hindranceOfItems? calls xs)

def hindranceOfEntries? (calls : Option Nat) : List (Datum × Datum) → Option Hindrance
  | [] => none
  | (k, v) :: rest =>
    ((hindrance? calls k).or (hindrance? calls v)).or (hindranceOfEntries? calls rest)

end

end OnlineLearning.Datum
