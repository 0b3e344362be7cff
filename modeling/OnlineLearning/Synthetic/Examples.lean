import OnlineLearning.Decimal.Layout
import OnlineLearning.Given
import OnlineLearning.Random.Source

/-! # Synthetic examples

Every class has a few features of its own. An example is of a random class, and each of its tokens
is either one of that class's features with a random value, or a word of a noise vocabulary that all
classes share. -/

namespace OnlineLearning.Synthetic

/-- What synthetic examples are made of. -/
structure Recipe where
  classes : Int
  prototypeSize : Int := 8
  noiseVocabulary : Int := 200
  tokensPerExample : Int := 6
  noise : Given Double
deriving DecidableEq

/-- The part of tokens that are noise when nothing is said. -/
def standardNoise : Double := .round false (3 * Format.double.one) 10

structure Example where
  tokens : List String
  label : String
deriving DecidableEq

/-- The ends of the range that the values of features are drawn from. -/
def leastValue : Double := .round false Format.double.one 2

def greatestValue : Double := 2

/-- A number after a name. -/
def numbered (name : String) (n : Nat) : String := name ++ String.ofList (Text.digits n)

def className (k : Nat) : String := numbered "c" k

/-- The labels of the classes. -/
def labels (classes : Int) : Vector String classes.toNat := .ofFn fun k => className k

variable (source : Random.Source) (recipe : Recipe)

/-- Draws a token of the class with this label. -/
def drawToken (label : String) (s : source.State) : Except Fault (String × source.State) := do
  let (chance, s) := source.fraction s
  let noise ← recipe.noise.orFault .blankPart
  if chance.less noise then
    let (word, s) ← source.below recipe.noiseVocabulary s
    return (numbered "noise" word, s)
  else
    let (feature, s) ← source.below recipe.prototypeSize s
    let (value, s) := source.between leastValue greatestValue s
    return (numbered (label ++ "_f") feature ++ ":" ++ String.ofList (value.roundTo 3).text, s)

def drawTokens (label : String) : (count : Nat) → source.State → Except Fault (List String × source.State)
  | 0, s => .ok ([], s)
  | count + 1, s => do
    let (token, s) ← drawToken source recipe label s
    let (tokens, s) ← drawTokens label count s
    return (token :: tokens, s)

def drawExample (labels : Vector String recipe.classes.toNat) (s : source.State) :
    Except Fault (Example × source.State) := do
  let (k, s) ← source.below recipe.classes s
  let (tokens, s) ← drawTokens source recipe labels[k] recipe.tokensPerExample.toNat s
  return (⟨tokens, labels[k]⟩, s)

/-- Draws examples until one fails: those before it, and the fault. -/
def drawExamples (labels : Vector String recipe.classes.toNat) :
    (count : Nat) → source.State → List Example × Option Fault
  | 0, _ => ([], none)
  | count + 1, s =>
    match drawExample source recipe labels s with
    | .error e => ([], some e)
    | .ok (ex, s) =>
      let (rest, fault?) := drawExamples labels count s
      (ex :: rest, fault?)

/-- The examples that a seed gives. All labels are there before the first draw. -/
def examples (recipe : Recipe) (count seed : Int) (source : Random.Source := Random.Generator.source) :
    List Example × Option Fault :=
  match source.start seed with
  | .error e => ([], some e)
  | .ok s => drawExamples source recipe (labels recipe.classes) count.toNat s

end OnlineLearning.Synthetic
