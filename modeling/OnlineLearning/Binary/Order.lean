import OnlineLearning.Binary.Number

/-! # The order of numbers

`order?` places every number but not-a-number on the integers, with both zeros in one place, and all
comparisons are comparisons of these places. Numbers in one place have one exact value, so `same` is
equality of values. -/

namespace OnlineLearning.Number

variable {F : Format}

/-- The place of a number among the others; both zeros share one, and not-a-number has none. -/
def order? : Number F → Option Int
  | nan => none
  | infinite s => some (if s then -(F.top : Int) else F.top)
  | finite s r => some (if s then -(r : Int) else r)

def isNaN (x : Number F) : Bool := x.order?.isNone

/-- Whether `x < y`; false when either is not-a-number. -/
def less (x y : Number F) : Bool :=
  match x.order?, y.order? with
  | some a, some b => a < b
  | _, _ => false

/-- Whether `x ≤ y`; false when either is not-a-number. -/
def atMost (x y : Number F) : Bool :=
  match x.order?, y.order? with
  | some a, some b => a ≤ b
  | _, _ => false

/-- Whether `x` and `y` are numerically equal; not-a-number equals nothing. -/
def same (x y : Number F) : Bool :=
  match x.order?, y.order? with
  | some a, some b => a = b
  | _, _ => false

/-- Whether a number equals an integer exactly. -/
def isInt (x : Number F) (n : Int) : Bool :=
  x.units? == some (n * F.one)

@[simp] theorem order?_nan : (nan : Number F).order? = none := rfl

theorem less_iff {x y : Number F} :
    x.less y = true ↔ ∃ a b, x.order? = some a ∧ y.order? = some b ∧ a < b := by
  unfold less
  cases x.order? <;> cases y.order? <;> simp

theorem atMost_iff {x y : Number F} :
    x.atMost y = true ↔ ∃ a b, x.order? = some a ∧ y.order? = some b ∧ a ≤ b := by
  unfold atMost
  cases x.order? <;> cases y.order? <;> simp

theorem less_irrefl (x : Number F) : x.less x = false := by
  unfold less; cases x.order? <;> simp

theorem isNaN_iff (x : Number F) : x.isNaN = true ↔ x = nan := by
  cases x <;> simp [isNaN, order?]

theorem same_iff {x y : Number F} :
    x.same y = true ↔ ∃ p, x.order? = some p ∧ y.order? = some p := by
  unfold same
  cases x.order? <;> cases y.order? <;> simp [eq_comm]

theorem same_comm (x y : Number F) : x.same y = y.same x := by
  rw [Bool.eq_iff_iff, same_iff, same_iff]
  exact ⟨fun ⟨p, h, k⟩ => ⟨p, k, h⟩, fun ⟨p, h, k⟩ => ⟨p, k, h⟩⟩

theorem same_trans {x y z : Number F} (h : x.same y = true) (k : y.same z = true) :
    x.same z = true := by
  obtain ⟨p, hx, hy⟩ := same_iff.mp h
  obtain ⟨q, hy', hz⟩ := same_iff.mp k
  rw [hy] at hy'
  exact same_iff.mpr ⟨p, hx, by rw [hz, Option.some.inj hy']⟩

theorem same_self {x : Number F} (h : x.isNaN = false) : x.same x = true := by
  unfold isNaN at h
  rw [same_iff]
  cases hx : x.order? with
  | none => simp [hx] at h
  | some p => exact ⟨p, rfl, rfl⟩

theorem isNaN_eq_false_of_same {x y : Number F} (h : x.same y = true) : x.isNaN = false := by
  obtain ⟨p, hx, -⟩ := same_iff.mp h
  simp [isNaN, hx]

theorem order?_infinite_ne (s t : Bool) (r : Fin F.top) :
    (infinite s : Number F).order? ≠ (finite t r).order? := by
  have := r.isLt
  cases s <;> cases t <;> simp only [order?, ne_eq, Option.some.injEq] <;> simp <;> omega

theorem units?_eq_of_order?_eq {x y : Number F} (h : x.order? = y.order?) (hx : x ≠ nan) :
    x.units? = y.units? := by
  rcases x with _ | s | ⟨s, a⟩
  · exact absurd rfl hx
  · rcases y with _ | t | ⟨t, b⟩
    · simp [order?] at h
    · rfl
    · exact absurd h (order?_infinite_ne s t b)
  · rcases y with _ | t | ⟨t, b⟩
    · simp [order?] at h
    · exact absurd h.symm (order?_infinite_ne t s a)
    · have hab : a.val = b.val ∧ (s = t ∨ a.val = 0) := by
        cases s <;> cases t <;> simp [order?] at h ⊢ <;> omega
      rcases hab.2 with rfl | h0
      · simp [units?, hab.1]
      · simp [units?, ← hab.1, h0]

theorem units?_eq_of_same {x y : Number F} (h : x.same y = true) : x.units? = y.units? := by
  obtain ⟨p, hx, hy⟩ := same_iff.mp h
  refine units?_eq_of_order?_eq (hx.trans hy.symm) ?_
  rintro rfl
  simp at hx

theorem isInt_iff {x : Number F} {n : Int} : x.isInt n = true ↔ x.units? = some (n * F.one) := by
  simp [isInt]

theorem isInt_of_same {x y : Number F} (h : x.same y = true) (n : Int) : x.isInt n = y.isInt n := by
  unfold isInt; rw [units?_eq_of_same h]

theorem eq_of_isInt {x : Number F} {m n : Int} (h : x.isInt m = true) (k : x.isInt n = true) :
    m = n := by
  have e := (isInt_iff.mp h).symm.trans (isInt_iff.mp k)
  have hp : (F.one : Int) ≠ 0 := by have := F.one_pos; omega
  exact Int.eq_of_mul_eq_mul_right hp (Option.some.inj e)

theorem isNaN_eq_false_of_isInt {x : Number F} {n : Int} (h : x.isInt n = true) :
    x.isNaN = false := by
  cases x with
  | nan => simp [isInt, units?] at h
  | infinite s => rfl
  | finite s r => rfl

theorem same_of_units?_eq {x y : Number F} {u : Int} (h : x.units? = some u)
    (k : y.units? = some u) : x.same y = true := by
  rcases x with _ | s | ⟨s, a⟩ <;> rcases y with _ | t | ⟨t, b⟩ <;> simp only [units?, reduceCtorEq,
    Option.some.injEq] at h k
  have hab : F.units a = F.units b ∧ (s = t ∨ F.units a = 0) := by
    cases s <;> cases t <;> simp at h k ⊢ <;> omega
  have hr := F.units_inj.mp hab.1
  rw [same_iff]
  rcases hab.2 with rfl | h0
  · exact ⟨_, rfl, by simp [order?, hr]⟩
  · rw [← F.units_zero, F.units_inj] at h0
    exact ⟨0, by simp [order?, h0], by simp [order?, ← hr, h0]⟩

theorem same_of_isInt {x y : Number F} {n : Int} (h : x.isInt n = true) (k : y.isInt n = true) :
    x.same y = true :=
  same_of_units?_eq (isInt_iff.mp h) (isInt_iff.mp k)

end OnlineLearning.Number
