import OnlineLearning.Proofs.Binary.Magnitude
import OnlineLearning.Proofs.Decimal.RoundTrip

/-!
# Numbers that are laid out with a point only

The text of a number has no exponent if the number is zero, or of a size from a ten-thousandth up to, but
without, ten to the sixteenth: `isPositional_shortest`. Between these powers of ten the place of the first digit
says so at once; at the powers themselves the shortest decimal is the power.
-/

namespace OnlineLearning

namespace Decimal
variable {r : Nat}

theorem size_shortest_powers : (shortest Format.double ((power (-4)).rank Format.double)).size = -3 ∧
    (shortest Format.double ((power 16).rank Format.double)).size = 17 := by decide +kernel

/-- Powers of ten in order, from below the range of positional notation to the top. -/
theorem rank_powers : 0 < (power (-4)).rank Format.double ∧
    (power (-4)).rank Format.double < (power 0).rank Format.double ∧
    (power 0).rank Format.double < (power 1).rank Format.double ∧
    (power 1).rank Format.double < (power 16).rank Format.double ∧
    (power 16).rank Format.double < Format.double.top := by decide +kernel

theorem isPositional_shortest_iff_rank (hr : 0 < r) : (shortest Format.double r).IsPositional ↔
    (power (-4)).rank Format.double ≤ r ∧ r < (power 16).rank Format.double := by
  have hrank : (shortest Format.double r).rank Format.double = r := rank_shortest r
  have hne := Number.coefficient_shortest_ne_zero (F := Format.double) hr
  constructor
  · rintro ⟨hleast, hgreatest⟩
    refine ⟨?_, Nat.lt_of_le_of_ne ?_ ?_⟩
    · calc (power (-4)).rank Format.double ≤ (shortest Format.double r).rank Format.double :=
            rank_mono (power_le hne (by omega))
        _ = r := hrank
    · calc r = (shortest Format.double r).rank Format.double := hrank.symm
        _ ≤ (power 16).rank Format.double := rank_mono (Nat.le_of_lt (lt_power (by omega)))
    · intro heq
      rw [heq, size_shortest_powers.2] at hgreatest
      omega
  · rintro ⟨hleast, hgreatest⟩
    refine ⟨Int.not_lt.mp fun hsize => ?_, Int.not_lt.mp fun hsize => ?_⟩
    · have hle : r ≤ (power (-4)).rank Format.double := by
        rw [← hrank]
        exact rank_mono (Nat.le_of_lt (lt_power (by omega)))
      rw [Nat.le_antisymm hle hleast, size_shortest_powers.1] at hsize
      omega
    · have hle : (power 16).rank Format.double ≤ r := by
        rw [← hrank]
        exact rank_mono (power_le hne (by omega))
      exact Nat.not_le_of_lt hgreatest hle

end Decimal

namespace Number

/-- The number nearest to a power of ten. -/
def power (p : Int) : Double := .ofRank false ((Decimal.power p).rank Format.double)

/-- Whether a number is laid out with a point only. -/
def IsPositional (x : Double) : Prop :=
  x.magnitude = 0 ∨ (power (-4)).magnitude ≤ x.magnitude ∧ x.magnitude < (power 16).magnitude

instance (x : Double) : Decidable x.IsPositional := inferInstanceAs (Decidable (_ ∨ _))

theorem magnitude_power {p : Int} (h : (Decimal.power p).rank Format.double ≤ Format.double.top) :
    (power p).magnitude = Format.double.units ((Decimal.power p).rank Format.double) := by
  rw [power, magnitude_ofRank, Nat.min_eq_left (Format.double.units_le_iff.mpr h)]

theorem not_isPositional_of_not_finite {x : Double} (h : x.isFinite = false) : ¬ x.IsPositional := by
  rw [IsPositional, magnitude_of_not_finite h]
  exact not_or.mpr ⟨by decide, fun hbounds => Nat.not_le_of_lt hbounds.2 (magnitude_le_top _)⟩

theorem isPositional_zero (s : Bool) {r : Fin Format.double.top} (hr : r.val = 0) : IsPositional (.finite s r) := by
  left
  show Format.double.units r = 0
  rw [hr, Format.units_zero]

/-- A number is laid out with a point only exactly if its shortest decimal is. -/
theorem isPositional_shortest (s : Bool) {r : Fin Format.double.top} (hr : 0 < r.val) :
    (Decimal.shortest Format.double r).IsPositional ↔ IsPositional (.finite s r) := by
  have hne : Format.double.units r ≠ 0 := Nat.ne_of_gt (Format.double.units_pos hr)
  show _ ↔ Format.double.units r = 0 ∨
    (power (-4)).magnitude ≤ Format.double.units r ∧ Format.double.units r < (power 16).magnitude
  obtain ⟨-, hzero, hone, hsixteen, htop⟩ := Decimal.rank_powers
  rw [Decimal.isPositional_shortest_iff_rank hr, magnitude_power (Nat.le_of_lt htop), magnitude_power (by omega),
    Format.units_le_iff, Format.units_lt_iff, or_iff_right hne]

end Number

end OnlineLearning
