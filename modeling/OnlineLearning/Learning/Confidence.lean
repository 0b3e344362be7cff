import OnlineLearning.Datum.Conversion
import OnlineLearning.Gaussian.Quantile

/-! # The confidence parameter

The parameter `phi` says how certain an update has to be. It is given directly, or as the
probability `eta` that an example is then classified correctly: `phi` is the normal quantile of
`eta`, clipped to a range. -/

namespace OnlineLearning.Confidence

/-- The confidence parameter when nothing is given. -/
def standard : Double := 1

/-- The range that quantiles are clipped to. -/
def standardRange : Double := 5

/-- A number clipped to the range from `-range` to `range`. Not-a-number goes to the upper end. -/
def clip (range x : Double) : Double :=
  let capped := if x.less range then x else range
  if Number.less (-range) capped then capped else -range

/-- The quantile of a probability, clipped; at zero and one it is the end of the range. -/
def clippedQuantile (quantile : Double → Double) (p range : Double) : Except Fault Double :=
  if range.atMost 0 then .error (.rangeNotPositive range)
  else if p.same 0 then .ok (-range)
  else if p.same 1 then .ok range
  else .ok (clip range (quantile p))

/-- A confidence parameter must be positive. -/
def checkPhi (phi : Double) : Except Fault Double :=
  if Number.less 0 phi then .ok phi else .error (.phiNotPositive phi)

/-- The confidence parameter of a probability above one half and at most one, in four bytes. -/
def phiOfEta (quantile : Double → Double) (eta : Double) : Except Fault Double :=
  if eta.atMost (Gaussian.decimal 5 (-1)) || Number.less 1 eta then .error (.etaOutOfRange eta)
  else (fun x => x.narrow.widen) <$> clippedQuantile quantile eta standardRange

/-- The confidence parameter: `phi` if it is given, else the one of `eta`, else one. -/
def resolve (quantile : Double → Double) (phi eta : Datum) : Except Fault Double :=
  if !phi.isNull then phi.toFloat >>= checkPhi
  else if !eta.isNull then eta.toFloat >>= phiOfEta quantile
  else .ok standard

end OnlineLearning.Confidence
