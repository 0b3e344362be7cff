import OnlineLearning.Binary.Order
import OnlineLearning.Decimal.Basic
import OnlineLearning.Gaussian.Logarithm

/-! # Quantiles of the standard normal distribution

The quantile of a probability is approximated by rational functions: of the distance to one half in
the middle, and of the square root of twice the negative logarithm in both tails, which have a
nearer and a farther zone. All steps are in eight-byte arithmetic. -/

namespace OnlineLearning.Gaussian

/-- The number nearest to `coefficient * 10 ^ exponent`. -/
def decimal (coefficient exponent : Int) : Double :=
  Decimal.toNumber .double (coefficient < 0) ⟨coefficient.natAbs, exponent⟩

/-- The value of a polynomial, coefficients from the highest power down. -/
def polynomial (coefficients : List Double) (x : Double) : Double :=
  match coefficients with
  | [] => 0
  | c :: cs => cs.foldl (fun sum c => sum * x + c) c

/-- The value of a polynomial whose highest coefficient, a one, is left out. -/
def monicPolynomial (coefficients : List Double) (x : Double) : Double :=
  match coefficients with
  | [] => 1
  | c :: cs => cs.foldl (fun sum c => sum * x + c) (x + c)

def middleNumerator : List Double :=
  [decimal (-599633501014107895267) (-19), decimal 980010754185999661536 (-19),
   decimal (-566762857469070293439) (-19), decimal 139312609387279679503 (-19),
   decimal (-123916583867381258016) (-20)]

def middleDenominator : List Double :=
  [decimal 195448858338141759834 (-20), decimal 467627912898881538453 (-20),
   decimal 863602421390890590575 (-19), decimal (-225462687854119370527) (-18),
   decimal 200260212380060660359 (-18), decimal (-820372256168333339912) (-19),
   decimal 159056225126211695515 (-19), decimal (-118331621121330003142) (-20)]

def nearNumerator : List Double :=
  [decimal 405544892305962419923 (-20), decimal 315251094599893866154 (-19),
   decimal 571628192246421288162 (-19), decimal 440805073893200834700 (-19),
   decimal 146849561928858024014 (-19), decimal 218663306850790267539 (-20),
   decimal (-140256079171354495875) (-21), decimal (-350424626827848203418) (-22),
   decimal (-857456785154685413611) (-24)]

def nearDenominator : List Double :=
  [decimal 157799883256466749731 (-19), decimal 453907635128879210584 (-19),
   decimal 413172038254672030440 (-19), decimal 150425385692907503408 (-19),
   decimal 250464946208309415979 (-20), decimal (-142182922854787788574) (-21),
   decimal (-380806407691578277194) (-22), decimal (-933259480895457427372) (-24)]

def farNumerator : List Double :=
  [decimal 323774891776946035970 (-20), decimal 691522889068984211695 (-20),
   decimal 393881025292474443415 (-20), decimal 133303460815807542389 (-20),
   decimal 201485389549179081538 (-21), decimal 123716634817820021358 (-22),
   decimal 301581553508235416007 (-24), decimal 265806974686737550832 (-26),
   decimal 623974539184983293730 (-29)]

def farDenominator : List Double :=
  [decimal 602427039364742014255 (-20), decimal 367983563856160859403 (-20),
   decimal 137702099489081330271 (-20), decimal 216236993594496635890 (-21),
   decimal 134204006088543189037 (-22), decimal 328014464682127739104 (-24),
   decimal 289247864745380683936 (-26), decimal 679019408009981274425 (-29)]

/-- The square root of the full turn in radians. -/
def rootOfTurn : Double := decimal 250662827463100050242 (-20)

/-- The probability where the tails begin. -/
def tailProbability : Double := decimal 13533528323661269189 (-20)

def middleQuantile (p : Double) : Double :=
  let y := p - decimal 5 (-1)
  let square := y * y
  let ratio := polynomial middleNumerator square / monicPolynomial middleDenominator square
  (y + y * (square * ratio)) * rootOfTurn

/-- How far from zero the quantile of a tail of probability `p` is. -/
def tailDistance (p : Double) : Double :=
  let x := (-2 * log p).sqrt
  let z := 1 / x
  let ratio :=
    if x.less 8 then z * polynomial nearNumerator z / monicPolynomial nearDenominator z
    else z * polynomial farNumerator z / monicPolynomial farDenominator z
  x - log x / x - ratio

/-- The quantile of a probability; there is none outside the range from zero to one. -/
def quantile (p : Double) : Double :=
  if p.same 0 then .infinite true
  else if p.same 1 then .infinite false
  else if p.isNaN || p.less 0 || Number.less 1 p then .nan
  else if Number.less (1 - tailProbability) p then tailDistance (1 - p)
  else if tailProbability.less p then middleQuantile p
  else -tailDistance p

end OnlineLearning.Gaussian
