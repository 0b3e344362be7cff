import OnlineLearning.Feature.Basic
import OnlineLearning.Model.Ledger

/-! # The weights of one label

A store holds a weight for each key that was ever set, and reads a default for all others. A weight
is a mean with a covariance. Dot products run through the coordinates from left to right in
four-byte arithmetic. -/

namespace OnlineLearning

/-- The weight of a coordinate: its mean and how uncertain that mean is. -/
structure Weight where
  mean : Double
  covariance : Double
deriving DecidableEq

/-- An unseen weight: mean zero, covariance one. -/
def Weight.unseen : Weight := ⟨0, 1⟩

/-- The weights of one label, over a default. -/
structure Store where
  default : Weight := Weight.unseen
  weights : Ledger Weight := .empty

namespace Store

def get (s : Store) (k : Key) : Weight := (s.weights.get? k).getD s.default

def set (s : Store) (k : Key) (w : Weight) : Store := { s with weights := s.weights.insert k w }

def contains (s : Store) (k : Key) : Bool := s.weights.contains k

def size (s : Store) : Nat := s.weights.size

/-- The dot product of the means and the coordinates. -/
def score (s : Store) (cs : List Coordinate) : Single :=
  cs.foldl (fun sum c => sum + (s.get c.key).mean.narrow * c.value.narrow) 0

/-- The dot product, and the sum of the squared coordinates times their covariances, in one pass. -/
def scoreAndVariance (s : Store) (cs : List Coordinate) : Single × Single :=
  cs.foldl
    (fun (sum, variance) c =>
      let w := s.get c.key
      let x := c.value.narrow
      (sum + w.mean.narrow * x, variance + w.covariance.narrow * x * x))
    (0, 0)

theorem get_set (s : Store) (k l : Key) (w : Weight) :
    (s.set k w).get l = if k.same l then w else s.get l := by
  simp only [get, set, Ledger.get?_insert]
  split <;> rfl

theorem get_congr (s : Store) {k l : Key} (h : k.same l = true) : s.get k = s.get l := by
  rw [get, get, Ledger.get?_congr _ h]

end Store

end OnlineLearning
