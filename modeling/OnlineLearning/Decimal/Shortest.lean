import OnlineLearning.Decimal.Basic

/-! # The shortest decimal that reads back

`shortest` gives a magnitude the decimal with the fewest digits among those whose nearest magnitude
it is; of several with that many digits, the one closest to it. For every digit count only the two
neighbours of the magnitude on the decimal grid can be that decimal. Main statement:
`rank_shortest`. -/

namespace OnlineLearning.Decimal

variable (F : Format)

/-- Whether the magnitude of rank `r` is the nearest one to a decimal. -/
def readsBack (r : Nat) (d : Decimal) : Bool := d.rank F == r

/-- The exponent of the leading digit of `num / den`. -/
def leadingExponent (num den : Nat) : Int :=
  if den ≤ num then (Text.digitCount (num / den) : Int) - 1
  else -(Text.digitCount ((den - 1) / num) : Int)

/-- The decimal of `count` digits closest to the magnitude of rank `r` among those that read back as
it. -/
def withDigits? (r count : Nat) : Option Decimal :=
  let e := leadingExponent (F.units r) F.one - (count - 1 : Nat)
  let num := F.units r * Nat.pow 10 (-e).toNat
  let den := F.one * Nat.pow 10 e.toNat
  let below := num / den
  let near := nearestEven num den
  let far := if near = below then below + 1 else below
  [⟨near, e⟩, ⟨far, e⟩].find? (readsBack F r)

def exact (r : Nat) : Decimal := ⟨F.units r * Nat.pow 5 F.scale, -F.scale⟩

/-- How many digits are tried before the whole expansion is taken. -/
def digitLimit : Nat := 17

/-- The shortest decimal that reads back as the magnitude of rank `r`. -/
def shortest (r : Nat) : Decimal :=
  ((List.range digitLimit).findSome? fun k => withDigits? F r (k + 1)).getD (exact F r)

variable {F}

theorem rank_of_withDigits? {r count : Nat} {d : Decimal} (h : withDigits? F r count = some d) :
    d.rank F = r :=
  beq_iff_eq.mp (List.find?_some (p := readsBack F r) h)

theorem rank_exact (r : Nat) : (exact F r).rank F = r := by
  have hs : (-(-(F.scale : Int))).toNat = F.scale := by omega
  have hz : (-(F.scale : Int)).toNat = 0 := by omega
  have hp : F.units r * 5 ^ F.scale * 2 ^ F.scale = F.units r * 10 ^ F.scale := by
    rw [Nat.mul_assoc, ← Nat.mul_pow]
  have hk := F.nearest_scale (F.units r) 1 (k := 10 ^ F.scale) (Nat.pow_pos (by decide))
  rw [Nat.one_mul] at hk
  simp only [rank, numerator, denominator, exact, hs, hz, Nat.pow_eq, Nat.pow_zero, Nat.mul_one,
    Format.one, Nat.one_shiftLeft, hp, hk, Format.nearest_units]

theorem rank_shortest (r : Nat) : (shortest F r).rank F = r := by
  unfold shortest
  cases h : (List.range digitLimit).findSome? fun k => withDigits? F r (k + 1) with
  | none => exact rank_exact r
  | some d =>
    obtain ⟨k, -, hk⟩ := List.exists_of_findSome?_eq_some h
    exact rank_of_withDigits? hk

end OnlineLearning.Decimal
