import OnlineLearning.Learning.Notice
import OnlineLearning.Model.Registry

/-! # Confidence-weighted steps

With margin `m`, variance `v` and confidence parameter `phi`, an example asks for the step

    b    = 1 + 2 * phi * m
    step = (-b + sqrt (b ^ 2 - 8 * phi * (m - phi * v))) / (4 * phi * v)

A step along a coordinate moves the mean of a weight by the step times its covariance, and shrinks
the covariance. All arithmetic is in four bytes, one rounding for each operation. -/

namespace OnlineLearning

namespace Step

/-- What the square root in the step size is taken of. -/
def discriminant (m v phi : Single) : Single :=
  let b := 1 + 2 * phi * m
  b * b - 8 * phi * (m - phi * v)

/-- The step size; zero where it has no solution, and a notice if that is not because the divisor is
zero. -/
def size (m v phi : Single) : Single × List Notice :=
  let divisor := 4 * phi * v
  if divisor.same 0 then (0, [])
  else
    let d := discriminant m v phi
    if Number.atMost 0 d then ((-(1 + 2 * phi * m) + d.sqrt) / divisor, [])
    else (0, [.degenerateStep d m v phi])

/-- The covariance after a step along a coordinate, before it is kept positive. -/
def shrink (covariance x step phi : Single) : Single :=
  1 / (1 / covariance + 2 * step * phi * x * x)

/-- The least covariance: the smallest number with a full significand. -/
def leastCovariance : Single := .ofRank false Format.single.stride

/-- The weight after a step along a coordinate, toward the example or away from it. -/
def apply (toward : Bool) (x step phi : Single) (w : Weight) : Weight × List Notice :=
  let mean := w.mean.narrow
  let covariance := w.covariance.narrow
  let move := step * covariance * x
  let mean' := if toward then mean + move else mean - move
  let covariance' := shrink covariance x step phi
  if Number.less 0 covariance' then (⟨mean'.widen, covariance'.widen⟩, [])
  else (⟨mean'.widen, leastCovariance.widen⟩, [.covarianceUnderflow covariance x step])

end Step

namespace Registry

/-- A step along one coordinate under one label. -/
def stepAt (step phi : Single) (toward : Bool) (label : Key) (c : Coordinate)
    (state : Registry × List Notice) : Registry × List Notice :=
  let (r, notices) := state
  let (w, more) := Step.apply toward c.value.narrow step phi (r.weight label c.key)
  (r.set label c.key w, notices ++ more)

/-- A step along one coordinate: the label moves toward the example, the rival away from it. -/
def stepBoth (step phi : Single) (label : Key) (rival : Option Key)
    (state : Registry × List Notice) (c : Coordinate) : Registry × List Notice :=
  let state := stepAt step phi true label c state
  match rival with
  | none => state
  | some rival => stepAt step phi false rival c state

/-- A step along all coordinates of an example. -/
def step (r : Registry) (step phi : Single) (label : Key) (rival : Option Key)
    (cs : List Coordinate) : Registry × List Notice :=
  let r := r.create label
  let r := match rival with
    | none => r
    | some rival => r.create rival
  cs.foldl (stepBoth step phi label rival) (r, [])

end Registry

end OnlineLearning
