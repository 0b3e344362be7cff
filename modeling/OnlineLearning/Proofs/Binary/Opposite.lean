import OnlineLearning.Proofs.Binary.Difference

/-!
# Opposite numbers

Two numbers are opposite if one is the negative of the other as a value; zeros of any sign are opposite,
and so are two that are not-a-number. Rounding goes to the nearest magnitude whatever the sign is, so
numbers stay opposite when they are converted (`Opposite.convert`) and when the same number is added to one
and subtracted from the other (`Opposite.add_sub`), also where that overflows or is undefined.
-/

namespace OnlineLearning.Number
variable {F G : Format} {x y : Number F}

/-- One number is the negative of the other, or neither is a number. -/
def Opposite (x y : Number F) : Prop := (x = nan ∧ y = nan) ∨ x.same (-y) = true

/-- The ways in which numbers are opposite. -/
inductive OppositeCase : Number F → Number F → Prop where
  | nan : OppositeCase nan nan
  | infinite (s : Bool) : OppositeCase (infinite s) (infinite !s)
  | finite (s : Bool) (r : Fin F.top) : OppositeCase (finite s r) (finite (!s) r)
  | zero (s t : Bool) (r : Fin F.top) (h : r.val = 0) : OppositeCase (finite s r) (finite t r)

theorem order?_neg (x : Number F) : (-x).order? = x.order?.map fun p => -p := by
  show (neg x).order? = _
  rcases x with _ | s | ⟨s, r⟩
  · rfl
  · cases s <;> simp [neg, order?]
  · cases s <;> simp [neg, order?]

theorem opposite_iff_order? : Opposite x y ↔ x.order? = y.order?.map fun p => -p := by
  rw [← order?_neg, Opposite]
  constructor
  · rintro (⟨rfl, rfl⟩ | h)
    · rfl
    · obtain ⟨p, hx, hy⟩ := same_iff.mp h
      rw [hx, hy]
  · intro h
    cases hx : x.order? with
    | none =>
      rw [hx, order?_neg] at h
      have hy : y.order? = none := by simpa using h.symm
      exact .inl ⟨(isNaN_iff x).mp (by simp [isNaN, hx]), (isNaN_iff y).mp (by simp [isNaN, hy])⟩
    | some p => exact .inr (same_iff.mpr ⟨p, hx, by rw [← h, hx]⟩)

theorem Opposite.symm (h : Opposite x y) : Opposite y x := by
  rw [opposite_iff_order?] at h ⊢
  rw [h, Option.map_map]
  cases y.order? <;> simp

theorem Opposite.cases [F.HasZero] (h : Opposite x y) : OppositeCase x y := by
  rw [opposite_iff_order?] at h
  rcases x with _ | s | ⟨s, a⟩
  · rcases y with _ | t | ⟨t, b⟩
    · exact .nan
    · cases h
    · cases h
  · rcases y with _ | t | ⟨t, b⟩
    · cases h
    · have htop := F.top_pos
      obtain rfl : t = !s := by
        cases s <;> cases t <;> simp [order?] at h ⊢ <;> omega
      exact .infinite s
    · rw [← order?_neg] at h
      exact absurd h (order?_infinite_ne s (!t) b)
  · rcases y with _ | t | ⟨t, b⟩
    · cases h
    · rw [← order?_neg] at h
      exact absurd h.symm (order?_infinite_ne (!t) s a)
    · simp only [order?, Option.map_some, Option.some.injEq] at h
      by_cases hs : t = !s
      · subst hs
        obtain rfl : a = b := by
          refine Fin.ext ?_
          cases s <;> simp only [Bool.not_true, Bool.not_false, if_true, Bool.false_eq_true, if_false] at h <;> omega
        exact .finite s a
      · obtain rfl : s = t := by
          cases s <;> cases t <;> simp at hs ⊢
        have hzero : a.val = 0 ∧ b.val = 0 := by
          cases s <;> simp only [if_true, Bool.false_eq_true, if_false] at h <;> omega
        obtain rfl : a = b := Fin.ext (hzero.1.trans hzero.2.symm)
        exact .zero s s a hzero.1

theorem opposite_infinite (s : Bool) : Opposite (infinite s : Number F) (infinite !s) := by
  rw [opposite_iff_order?]
  cases s <;> simp [order?]

theorem opposite_ofRank (s : Bool) (r : Nat) : Opposite (ofRank s r : Number F) (ofRank (!s) r) := by
  rw [opposite_iff_order?]
  unfold ofRank
  split
  · cases s <;> simp [order?]
  · cases s <;> simp [order?]

theorem opposite_ofRank_zero (s t : Bool) : Opposite (ofRank s 0 : Number F) (ofRank t 0) := by
  rw [opposite_iff_order?]
  unfold ofRank
  split
  · cases s <;> cases t <;> simp [order?]
  · rename_i h
    have htop : F.top = 0 := Nat.eq_zero_of_not_pos h
    cases s <;> cases t <;> simp [order?, htop]

/-- The rounded negative of a sum is the negative of the rounded one. -/
theorem opposite_roundUnits (s t : Bool) (n : Int) :
    Opposite (roundUnits s n : Number F) (roundUnits t (-n)) := by
  match n with
  | .ofNat 0 => exact opposite_ofRank_zero s t
  | .ofNat (n + 1) => exact opposite_ofRank false _
  | .negSucc n => exact opposite_ofRank true _

theorem signedUnits_not (s : Bool) (r : Nat) : signedUnits F (!s) r = -signedUnits F s r := by
  cases s <;> simp [signedUnits]

namespace Opposite

theorem convert [F.HasZero] (h : Opposite x y) : Opposite (x.convert G) (y.convert G) := by
  cases h.cases with
  | nan => exact .inl ⟨rfl, rfl⟩
  | infinite s => exact opposite_infinite s
  | finite s r => exact opposite_ofRank s _
  | zero s t r hr =>
    have hrank : G.nearest (F.units r * G.one) F.one = 0 := by
      rw [hr, F.units_zero, Nat.zero_mul, G.nearest_zero F.one_pos]
    show Opposite (ofRank s (G.nearest _ _)) (ofRank t (G.nearest _ _))
    rw [hrank]
    exact opposite_ofRank_zero s t

/-- Numbers stay opposite when the same number is added to one and subtracted from the other. -/
theorem add_sub [F.HasZero] (h : Opposite x y) (d : Number F) : Opposite (x + d) (y - d) := by
  show Opposite (add x d) (add y (neg d))
  cases h.cases with
  | nan => exact .inl ⟨rfl, rfl⟩
  | infinite s =>
    rcases d with _ | t | ⟨t, b⟩
    · exact .inl ⟨rfl, rfl⟩
    · by_cases hst : s = t
      · simp only [add, neg, hst, if_true]
        exact opposite_infinite t
      · simp only [add, neg, hst, Bool.not_eq_eq_eq_not, Bool.not_not, if_false]
        exact .inl ⟨rfl, rfl⟩
    · exact opposite_infinite s
  | finite s r =>
    rcases d with _ | t | ⟨t, b⟩
    · exact .inl ⟨rfl, rfl⟩
    · exact opposite_infinite t
    · have hsum := opposite_roundUnits (F := F) (s && t) (!s && !t) (signedUnits F s r + signedUnits F t b)
      rw [Int.neg_add, ← signedUnits_not, ← signedUnits_not] at hsum
      exact hsum
  | zero s t r hr =>
    rcases d with _ | u | ⟨u, b⟩
    · exact .inl ⟨rfl, rfl⟩
    · exact opposite_infinite u
    · have hzero : signedUnits F t r = -signedUnits F s r := by
        cases s <;> cases t <;> simp [signedUnits, hr]
      have hsum := opposite_roundUnits (F := F) (s && u) (t && !u) (signedUnits F s r + signedUnits F u b)
      rw [Int.neg_add, ← hzero, ← signedUnits_not] at hsum
      exact hsum

end Opposite

end OnlineLearning.Number
