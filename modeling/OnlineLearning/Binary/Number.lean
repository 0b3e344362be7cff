import OnlineLearning.Binary.Format

/-! # Numbers of a binary format

A number is not-a-number, a signed infinity, or a signed finite magnitude given by its rank. There
is one not-a-number: nothing here depends on its sign or payload. -/

namespace OnlineLearning

/-- A number of the format `F`. -/
inductive Number (F : Format) where
  | nan
  | infinite (negative : Bool)
  | finite (negative : Bool) (rank : Fin F.top)
deriving DecidableEq

abbrev Single := Number Format.single

abbrev Double := Number Format.double

namespace Number

variable {F : Format}

/-- The number with a given sign and rank; a rank that no finite number has gives an infinity. -/
def ofRank (negative : Bool) (r : Nat) : Number F :=
  if h : r < F.top then finite negative ⟨r, h⟩ else infinite negative

/-- The number nearest to `num / den` units, with a sign. -/
def round (negative : Bool) (num den : Nat) : Number F :=
  ofRank negative (F.nearest num den)

/-- The number nearest to a whole number of units; `zeroSign` is the sign of a zero result. -/
def roundUnits (zeroSign : Bool) : Int → Number F
  | .ofNat 0 => ofRank zeroSign 0
  | .ofNat n => round false n 1
  | .negSucc n => round true (n + 1) 1

def ofInt (n : Int) : Number F :=
  roundUnits false (n * F.one)

instance (n : Nat) : OfNat (Number F) n := ⟨ofInt n⟩

instance : Inhabited (Number F) := ⟨ofRank false 0⟩

/-- The exact value of a finite number, in units. -/
def units? : Number F → Option Int
  | finite s r => some (if s then -(F.units r : Int) else F.units r)
  | _ => none

def neg : Number F → Number F
  | nan => nan
  | infinite s => infinite !s
  | finite s r => finite (!s) r

instance : Neg (Number F) := ⟨neg⟩

/-- The nearest number of another format. -/
def convert (G : Format) : Number F → Number G
  | nan => nan
  | infinite s => infinite s
  | finite s r => round s (F.units r * G.one) F.one

/-- The nearest four-byte number. -/
def narrow (x : Double) : Single := x.convert Format.single

def widen (x : Single) : Double := x.convert Format.double

theorem neg_neg (x : Number F) : - -x = x := by
  cases x <;> simp [Neg.neg, neg]

end Number

end OnlineLearning
