import OnlineLearning.Proofs.Binary.UnitInterval

/-!
# Differences and the order

A rounded difference is above zero exactly if the first number is above the second: the exact
difference of two finite numbers is a whole number of units, so rounding never loses it
(`less_zero_sub`).
-/

namespace OnlineLearning.Number
variable {F : Format} {x y z : Number F}

/-- The exact value of a signed magnitude, in units. -/
def signedUnits (F : Format) (s : Bool) (r : Nat) : Int := if s then -(F.units r : Int) else F.units r

theorem less_finite_iff {s t : Bool} {a b : Fin F.top} :
    (finite s a : Number F).less (finite t b) = true ↔ signedUnits F s a < signedUnits F t b := by
  have hab := F.units_lt_iff (r := a) (s := b)
  have hba := F.units_lt_iff (r := b) (s := a)
  have ha := F.units_lt_iff (r := 0) (s := a)
  have hb := F.units_lt_iff (r := 0) (s := b)
  rw [F.units_zero] at ha hb
  cases s <;> cases t <;> simp [less, order?, signedUnits] <;> omega

theorem less_zero_roundUnits {zeroSign : Bool} {n : Int} [F.HasZero] :
    Number.less 0 (roundUnits zeroSign n : Number F) = true ↔ 0 < n := by
  rw [less_zero_iff]
  match n with
  | .ofNat 0 =>
    show (∃ a, (ofRank zeroSign 0 : Number F).order? = some a ∧ 0 < a) ↔ (0 : Int) < 0
    rw [ofRank_of_lt F.top_pos]
    cases zeroSign <;> simp [order?]
  | .ofNat (n + 1) =>
    -- one unit is the least magnitude above zero, and rounding keeps the order
    have hone : 1 ≤ F.nearest (n + 1) 1 := by
      refine F.le_nearest Nat.one_pos ?_
      rw [F.units_of_lt (by have := F.stride_pos; omega)]
      omega
    have htop := F.top_pos
    have hplace : (roundUnits zeroSign (.ofNat (n + 1)) : Number F).order? =
        some ((min (F.nearest (n + 1) 1) F.top : Nat) : Int) := order?_ofRank_false _
    constructor
    · intro _
      show (0 : Int) < ((n + 1 : Nat) : Int)
      omega
    · intro _
      exact ⟨_, hplace, by omega⟩
  | .negSucc n =>
    constructor
    · rintro ⟨a, ha, hpos⟩
      change (ofRank true (F.nearest (n + 1) 1) : Number F).order? = some a at ha
      unfold ofRank at ha
      split at ha <;> simp [order?] at ha <;> omega
    · intro h
      exact absurd h (by omega)

theorem less_zero_sub (x y : Number F) : Number.less 0 (x - y) = y.less x := by
  rw [Bool.eq_iff_iff]
  show Number.less 0 (add x (neg y)) = true ↔ _
  rcases x with _ | s | ⟨s, a⟩
  · simp [add, less]
  · rcases y with _ | t | ⟨t, b⟩
    · simp [add, neg, less]
    · rw [less_zero_iff]
      cases s <;> cases t
      · simp [add, neg, less, order?]
      · show (∃ a, some (F.top : Int) = some a ∧ 0 < a) ↔ decide (-(F.top : Int) < F.top) = true
        simp only [Option.some.injEq, exists_eq_left', decide_eq_true_eq]
        omega
      · show (∃ a, some (-(F.top : Int)) = some a ∧ 0 < a) ↔ decide ((F.top : Int) < -F.top) = true
        simp only [Option.some.injEq, exists_eq_left', decide_eq_true_eq]
        omega
      · simp [add, neg, less, order?]
    · have hb := b.isLt
      rw [less_zero_iff]
      cases s <;> cases t <;> simp [add, neg, less, order?] <;> omega
  · rcases y with _ | t | ⟨t, b⟩
    · simp [add, neg, less]
    · have ha := a.isLt
      rw [less_zero_iff]
      cases s <;> cases t <;> simp [add, neg, less, order?] <;> omega
    · have hsum : add (finite s a) (neg (finite t b)) =
          roundUnits (s && !t) (signedUnits F s a - signedUnits F t b) := by
        unfold signedUnits
        cases s <;> cases t <;> simp [add, neg] <;> rfl
      have : F.HasZero := ⟨a.pos⟩
      rw [hsum, less_zero_roundUnits, less_finite_iff]
      omega

/-! ### Chains of comparisons -/

theorem not_less_of_less_of_not_less (h : x.less y = true) (hz : x.less z = false) : y.less z = false := by
  obtain ⟨a, b, ha, hb, hab⟩ := less_iff.mp h
  unfold less at hz ⊢
  rw [ha] at hz
  rw [hb]
  cases hc : z.order? with
  | none => rfl
  | some c =>
    rw [hc] at hz
    simp only [decide_eq_false_iff_not] at hz ⊢
    omega

/-- What is neither above the lower nor below the higher of two numbers is not-a-number. -/
theorem eq_nan_of_between (h : x.less y = true) (hx : x.less z = false) (hy : z.less y = false) :
    z = nan := by
  obtain ⟨a, b, ha, hb, hab⟩ := less_iff.mp h
  unfold less at hx hy
  rw [ha] at hx
  rw [hb] at hy
  rw [← isNaN_iff, isNaN]
  cases hc : z.order? with
  | none => rfl
  | some c =>
    rw [hc] at hx hy
    simp only [decide_eq_false_iff_not] at hx hy
    omega

theorem ne_nan_of_less (h : x.less y = true) : x ≠ nan ∧ y ≠ nan := by
  obtain ⟨a, b, ha, hb, -⟩ := less_iff.mp h
  constructor
  · rintro rfl
    cases ha
  · rintro rfl
    cases hb

end OnlineLearning.Number
