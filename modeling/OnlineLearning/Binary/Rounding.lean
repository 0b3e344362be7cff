/-! # Rounding exact quantities to integers

`nearestEven` rounds a quotient to the nearest integer and sends a tie to the even neighbour;
`floorSqrt` is the integer part of a square root. -/

namespace OnlineLearning

/-- The integer nearest to `num / den`; of two equally near ones, the even one. -/
def nearestEven (num den : Nat) : Nat :=
  let twice := 2 * (num % den)
  if twice < den ∨ (twice = den ∧ num / den % 2 = 0) then num / den else num / den + 1

theorem nearestEven_one (n : Nat) : nearestEven n 1 = n := by
  simp [nearestEven, Nat.mod_one]

theorem nearestEven_mul (n : Nat) {d : Nat} (h : 0 < d) : nearestEven (n * d) d = n := by
  simp [nearestEven, h]

theorem nearestEven_scale (num den : Nat) {k : Nat} (h : 0 < k) :
    nearestEven (num * k) (den * k) = nearestEven num den := by
  unfold nearestEven
  rw [Nat.mul_div_mul_right _ _ h, Nat.mul_mod_mul_right, ← Nat.mul_assoc]
  have hlt : 2 * (num % den) * k < den * k ↔ 2 * (num % den) < den := Nat.mul_lt_mul_right h
  have heq : 2 * (num % den) * k = den * k ↔ 2 * (num % den) = den := Nat.mul_left_inj (by omega)
  simp only [hlt, heq]

theorem le_nearestEven (num den : Nat) : num / den ≤ nearestEven num den := by
  unfold nearestEven; dsimp only; split <;> omega

theorem nearestEven_le (num den : Nat) : nearestEven num den ≤ num / den + 1 := by
  unfold nearestEven; dsimp only; split <;> omega

/-- The integer part of the square root of `n`, one binary digit per recursion. -/
def floorSqrt (n : Nat) : Nat :=
  if n = 0 then 0
  else
    let r := 2 * floorSqrt (n / 4)
    if (r + 1) * (r + 1) ≤ n then r + 1 else r
termination_by n
decreasing_by omega

theorem floorSqrt_sq_le (n : Nat) : floorSqrt n * floorSqrt n ≤ n := by
  induction n using Nat.strongRecOn with
  | ind n ih =>
    unfold floorSqrt
    split
    · simp
    · rename_i hn
      have h := ih (n / 4) (by omega)
      dsimp only
      split
      · assumption
      · have e : 2 * floorSqrt (n / 4) * (2 * floorSqrt (n / 4)) =
            4 * (floorSqrt (n / 4) * floorSqrt (n / 4)) := by
          simp only [Nat.mul_assoc, Nat.mul_left_comm]
          omega
        omega

end OnlineLearning
