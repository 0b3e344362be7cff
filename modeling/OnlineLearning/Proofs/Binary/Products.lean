import OnlineLearning.Proofs.Binary.Monotone

/-!
# Products and quotients beside the order

Multiplying by a number that is not below zero keeps the order (`atMost_mul_left`), also where products
overflow, and the signs of factors decide on which side of zero a product lies. Quotients of numbers above zero
are above zero unless nothing is left of them (`less_zero_div`).
-/

namespace OnlineLearning.Number
variable {F : Format} {x y z : Number F}

theorem less_zero_finite_iff {s : Bool} {a : Fin F.top} :
    Number.less 0 (finite s a : Number F) = true ↔ s = false ∧ a.val ≠ 0 := by
  rw [less_zero_iff]
  cases s <;> simp [order?]
  omega

theorem atMost_zero_finite_iff {s : Bool} {a : Fin F.top} :
    Number.atMost 0 (finite s a : Number F) = true ↔ s = false ∨ a.val = 0 := by
  rw [zero_eq, atMost_iff]
  simp only [order?_ofRank]
  cases s <;> simp [order?]

theorem less_zero_infinite_iff [F.HasZero] {s : Bool} :
    Number.less 0 (infinite s : Number F) = true ↔ s = false := by
  rw [less_zero_iff]
  cases s <;> simp [order?]
  exact F.top_pos

/-- An infinity takes over the sign of what it is multiplied by. -/
theorem infinite_mul [F.HasZero] (h : infinite false * x ≠ nan) :
    infinite false * x = infinite (!Number.less 0 x) := by
  have hsign : ∀ s : Bool, (false != s) = s := by decide
  rcases x with _ | s | ⟨s, a⟩
  · exact absurd (mul_nan _) h
  · have hless := less_zero_infinite_iff (F := F) (s := s)
    show infinite (false != s) = _
    cases s <;> simp_all
  · have hne : a.val ≠ 0 := fun h0 => h (if_pos h0)
    have hless := less_zero_finite_iff (F := F) (s := s) (a := a)
    have hmul : (infinite false * finite s a : Number F) = infinite s := by
      show (if a.val = 0 then nan else infinite (false != s)) = _
      rw [if_neg hne, hsign]
    rw [hmul]
    cases s <;> simp_all

theorem finite_mul_infinite {s : Bool} {a : Fin F.top} (h : finite false a * infinite s ≠ nan) :
    finite false a * infinite s = (infinite s : Number F) := by
  have hne : a.val ≠ 0 := fun h0 => h (if_pos h0)
  show (if a.val = 0 then nan else infinite (false != s)) = _
  rw [if_neg hne, Bool.false_bne]

theorem finite_mul_finite (s t : Bool) (a b : Fin F.top) :
    (finite s a * finite t b : Number F) = ofRank (s != t) (F.nearest (F.units a * F.units b) F.one) := rfl

theorem mul_ne_nan (hx : x.isFinite = true) (hy : y.isFinite = true) : x * y ≠ nan := by
  obtain ⟨s, a, rfl⟩ := isFinite_iff.mp hx
  obtain ⟨t, b, rfl⟩ := isFinite_iff.mp hy
  exact ofRank_ne_nan _ _

theorem eq_nan_of_mul_self (h : x * x = nan) : x = nan := by
  rcases x with _ | s | ⟨s, a⟩
  · rfl
  · cases h
  · exact absurd h (mul_ne_nan rfl rfl)

/-- A square that overflows has no sign. -/
theorem mul_self_eq_infinite (hx : x.isFinite = true) (h : (x * x).isFinite = false) : x * x = infinite false := by
  obtain ⟨s, a, rfl⟩ := isFinite_iff.mp hx
  rw [finite_mul_finite] at h ⊢
  unfold ofRank at h ⊢
  split at h
  · cases h
  · rename_i htop
    rw [dif_neg htop, bne_self_eq_false]

theorem zero_mul_finite (s t : Bool) {a b : Fin F.top} (h : a.val = 0) :
    (finite s a * finite t b : Number F) = ofRank (s != t) 0 := by
  rw [finite_mul_finite, h, F.units_zero, Nat.zero_mul, F.nearest_zero F.one_pos]

theorem atMost_finite_mul {s t : Bool} {a b c : Fin F.top} (h : (finite s a : Number F).atMost (finite t b) = true) :
    (finite false c * finite s a : Number F).atMost (finite false c * finite t b) = true := by
  have hmono : ∀ {a b : Fin F.top}, F.units a ≤ F.units b →
      F.nearest (F.units c * F.units a) F.one ≤ F.nearest (F.units c * F.units b) F.one := fun hle =>
    F.nearest_mono F.one_pos F.one_pos (Nat.mul_le_mul_right _ (Nat.mul_le_mul_left _ hle))
  have hzero : ∀ {a : Fin F.top}, F.units a = 0 → F.nearest (F.units c * F.units a) F.one = 0 := by
    intro a h0
    rw [h0, Nat.mul_zero, F.nearest_zero F.one_pos]
  rw [finite_mul_finite, finite_mul_finite]
  refine atMost_iff.mpr ⟨_, _, order?_ofRank .., order?_ofRank .., ?_⟩
  have hle := atMost_finite_iff.mp h
  unfold signedUnits at hle
  cases s <;> cases t <;> simp only [Bool.false_bne, Bool.false_eq_true, if_true, if_false] at hle ⊢
  · have := hmono (a := a) (b := b) (by omega)
    omega
  · rw [hzero (a := a) (by omega), hzero (a := b) (by omega)]
    omega
  · omega
  · have := hmono (a := b) (b := a) (by omega)
    omega

theorem atMost_mul_left [F.HasZero] (hz : Number.atMost 0 z = true) (h : x.atMost y = true)
    (hx : z * x ≠ nan) (hy : z * y ≠ nan) : (z * x).atMost (z * y) = true := by
  rcases eq_infinite_or_finite hz with rfl | ⟨u, c, rfl⟩
  · rw [infinite_mul hx, infinite_mul hy]
    cases hpos : Number.less 0 x with
    | false => exact infinite_atMost (by simp)
    | true =>
      rw [less_of_less_of_atMost hpos h]
      exact atMost_refl (by simp)
  rcases atMost_zero_finite_iff.mp hz with rfl | hc
  · rcases x with _ | s | ⟨s, a⟩
    · exact absurd (mul_nan _) hx
    · rw [finite_mul_infinite hx]
      cases s with
      | true => exact infinite_atMost hy
      | false =>
        obtain rfl := eq_infinite_of_atMost h
        rw [finite_mul_infinite hy]
        exact atMost_refl (by simp)
    · rcases y with _ | t | ⟨t, b⟩
      · exact absurd (mul_nan _) hy
      · cases t with
        | false =>
          rw [finite_mul_infinite hy]
          exact atMost_infinite hx
        | true => cases eq_infinite_of_atMost' h
      · exact atMost_finite_mul h
  · rcases x with _ | s | ⟨s, a⟩
    · exact absurd (mul_nan _) hx
    · exact absurd (if_pos hc) hx
    · rcases y with _ | t | ⟨t, b⟩
      · exact absurd (mul_nan _) hy
      · exact absurd (if_pos hc) hy
      · rw [zero_mul_finite _ _ hc, zero_mul_finite _ _ hc]
        refine atMost_iff.mpr ⟨_, _, order?_ofRank .., order?_ofRank .., ?_⟩
        cases (u != s) <;> cases (u != t) <;> simp

theorem mul_comm (x y : Number F) : x * y = y * x := by
  rcases x with _ | s | ⟨s, a⟩ <;> rcases y with _ | t | ⟨t, b⟩
  · rfl
  · rfl
  · rfl
  · rfl
  · show (infinite (s != t) : Number F) = infinite (t != s)
    rw [bne_comm]
  · show (if b.val = 0 then nan else infinite (s != t) : Number F) = if b.val = 0 then nan else infinite (t != s)
    rw [bne_comm]
  · rfl
  · show (if a.val = 0 then nan else infinite (s != t) : Number F) = if a.val = 0 then nan else infinite (t != s)
    rw [bne_comm]
  · rw [finite_mul_finite, finite_mul_finite, bne_comm, Nat.mul_comm]

theorem atMost_mul_right [F.HasZero] (hz : Number.atMost 0 z = true) (h : x.atMost y = true)
    (hx : x * z ≠ nan) (hy : y * z ≠ nan) : (x * z).atMost (y * z) = true := by
  rw [mul_comm x] at hx ⊢
  rw [mul_comm y] at hy ⊢
  exact atMost_mul_left hz h hx hy

theorem mul_zero_same [F.HasZero] (hx : x.isFinite = true) : (x * 0).same 0 = true := by
  obtain ⟨s, a, rfl⟩ := isFinite_iff.mp hx
  rw [zero_eq_finite, finite_mul_finite, F.units_zero, Nat.mul_zero, F.nearest_zero F.one_pos]
  refine same_iff.mpr ⟨0, ?_, rfl⟩
  rw [order?_ofRank]
  cases (s != false) <;> simp

/-- A factor that is not below zero makes only what is above zero a product above zero. -/
theorem less_zero_of_less_zero_mul [F.HasZero] (hx : x.isFinite = true) (hnonneg : Number.atMost 0 x = true)
    (hy : y ≠ nan) (h : Number.less 0 (x * y) = true) : Number.less 0 y = true := by
  refine Decidable.byContradiction fun hle => ?_
  obtain ⟨p, hzero, hp⟩ := same_iff.mp (mul_zero_same hx)
  have hne : x * (0 : Number F) ≠ nan := by
    rw [ne_eq, ← order?_eq_none_iff, hzero]
    nofun
  have hy0 : y.atMost 0 = true := by
    rw [atMost_eq_not_less hy (by rw [zero_eq_finite]; nofun), Bool.eq_false_iff.mpr hle]
    rfl
  have hprod := atMost_mul_left hnonneg hy0 (ne_nan_of_less h).2 hne
  obtain ⟨a, b, ha, hb, hab⟩ := atMost_iff.mp hprod
  obtain ⟨c, d, hc, hd, hcd⟩ := less_iff.mp h
  rw [hzero] at hb
  rw [hp] at hc
  rw [ha] at hd
  obtain rfl := Option.some.inj hb
  obtain rfl := Option.some.inj hc
  obtain rfl := Option.some.inj hd
  omega

theorem atMost_zero_of_hasSign (h : x.HasSign false) (hne : x ≠ nan) : Number.atMost 0 x = true := by
  rcases h.exists_rank with rfl | ⟨r, -, rfl⟩
  · exact absurd rfl hne
  · rw [zero_eq]
    exact atMost_iff.mpr ⟨_, _, order?_ofRank .., order?_ofRank .., by simp⟩

theorem hasSign_or_zero [F.HasZero] (h : Number.atMost 0 x = true) :
    x.HasSign false ∨ ∃ s a, x = finite s a ∧ a.val = 0 := by
  rcases eq_infinite_or_finite h with rfl | ⟨s, a, rfl⟩
  · exact .inl .infinite
  · rcases atMost_zero_finite_iff.mp h with rfl | ha
    · exact .inl (.finite a)
    · exact .inr ⟨s, a, rfl, ha⟩

theorem atMost_zero_mul [F.HasZero] (hx : Number.atMost 0 x = true) (hy : Number.atMost 0 y = true)
    (h : x * y ≠ nan) : Number.atMost 0 (x * y) = true := by
  have hzero : ∀ s t {a b : Fin F.top}, a.val = 0 ∨ b.val = 0 →
      Number.atMost 0 (finite s a * finite t b : Number F) = true := by
    intro s t a b hab
    have hrank : F.nearest (F.units a * F.units b) F.one = 0 := by
      rcases hab with h0 | h0 <;> simp [h0, F.nearest_zero F.one_pos]
    rw [finite_mul_finite, hrank, zero_eq]
    refine atMost_iff.mpr ⟨_, _, order?_ofRank .., order?_ofRank .., ?_⟩
    cases (s != t) <;> simp
  rcases hasSign_or_zero hx with hsx | ⟨s, a, rfl, ha⟩
  · rcases hasSign_or_zero hy with hsy | ⟨t, b, rfl, hb⟩
    · exact atMost_zero_of_hasSign (hsx.mul hsy) h
    · rcases x with _ | s | ⟨s, a⟩
      · exact absurd (nan_mul _) h
      · exact absurd (if_pos hb) h
      · exact hzero s t (.inr hb)
  · rcases y with _ | t | ⟨t, b⟩
    · exact absurd (mul_nan _) h
    · exact absurd (if_pos ha) h
    · exact hzero s t (.inl ha)

theorem atMost_zero_mul_self (hne : x * x ≠ nan) : Number.atMost 0 (x * x) = true := by
  refine atMost_zero_of_hasSign ?_ hne
  rcases x with _ | s | ⟨s, a⟩
  · exact absurd (nan_mul _) hne
  · show (infinite (s != s) : Number F).HasSign false
    rw [bne_self_eq_false]
    exact .infinite
  · rw [finite_mul_finite, bne_self_eq_false]
    exact hasSign_ofRank ..

theorem ofRank_not (s : Bool) (r : Nat) : (ofRank (!s) r : Number F) = -ofRank s r := by
  unfold ofRank
  split <;> rfl

theorem mul_neg (x y : Number F) : x * -y = -(x * y) := by
  have hsign : ∀ s t : Bool, (s != !t) = !(s != t) := by decide
  rcases x with _ | s | ⟨s, a⟩
  · rw [nan_mul, nan_mul]
    rfl
  · rcases y with _ | t | ⟨t, b⟩
    · rfl
    · show infinite (s != !t) = (infinite (!(s != t)) : Number F)
      rw [hsign]
    · show (if b.val = 0 then nan else infinite (s != !t) : Number F) = -(if b.val = 0 then nan else infinite (s != t))
      split
      · rfl
      · rw [hsign]
        rfl
  · rcases y with _ | t | ⟨t, b⟩
    · rfl
    · show (if a.val = 0 then nan else infinite (s != !t) : Number F) = -(if a.val = 0 then nan else infinite (s != t))
      split
      · rfl
      · rw [hsign]
        rfl
    · rw [finite_mul_finite, ← ofRank_not, ← hsign]
      rfl

theorem mul_atMost_zero [F.HasZero] (hx : Number.atMost 0 x = true) (hy : y.atMost 0 = true)
    (h : x * y ≠ nan) : (x * y).atMost 0 = true := by
  rw [← atMost_zero_neg, ← mul_neg]
  rw [← atMost_zero_neg] at hy
  refine atMost_zero_mul hx hy fun hnan => h ?_
  rw [mul_neg] at hnan
  rw [← neg_neg (x * y), hnan]
  rfl

theorem mul_right_atMost [F.HasZero] (hz : z.atMost 0 = true) (h : x.atMost y = true)
    (hx : x * z ≠ nan) (hy : y * z ≠ nan) : (y * z).atMost (x * z) = true := by
  have hneg : ∀ u : Number F, u * -(-z) = u * z := fun u => by rw [neg_neg]
  have hne : ∀ {u : Number F}, u * z ≠ nan → u * -z ≠ nan := by
    intro u hu hnan
    rw [mul_neg] at hnan
    exact hu (by rw [← neg_neg (u * z), hnan]; rfl)
  rw [← atMost_zero_neg] at hz
  have hle := atMost_neg (atMost_mul_right hz h (hne hx) (hne hy))
  rwa [← mul_neg, ← mul_neg, hneg, hneg] at hle

/-! ### Quotients -/

theorem zero_div_same (hy : Number.less 0 y = true) (hfinite : y.isFinite = true) : (0 / y).same 0 = true := by
  obtain ⟨t, b, rfl⟩ := isFinite_iff.mp hfinite
  obtain ⟨rfl, hb⟩ := less_zero_finite_iff.mp hy
  have : F.HasZero := ⟨b.pos⟩
  have hpos := F.units_pos (Nat.pos_of_ne_zero hb)
  have hdiv : (finite false ⟨0, F.top_pos⟩ / finite false b : Number F) =
      ofRank false (F.nearest (F.units 0 * F.one) (F.units b)) := if_neg hb
  rw [zero_eq_finite, hdiv, F.units_zero, Nat.zero_mul, F.nearest_zero hpos, ofRank_of_lt F.top_pos]
  exact same_self rfl

/-- A quotient of numbers above zero is above zero unless nothing is left of it. -/
theorem less_zero_div (hx : Number.less 0 x = true) (hy : Number.less 0 y = true)
    (hpos : 0 < (x / y).magnitude) (hfinite : y.isFinite = true) : Number.less 0 (x / y) = true := by
  obtain ⟨t, b, rfl⟩ := isFinite_iff.mp hfinite
  obtain ⟨rfl, hb⟩ := less_zero_finite_iff.mp hy
  have : F.HasZero := ⟨b.pos⟩
  rcases x with _ | s | ⟨s, a⟩
  · exact absurd rfl (ne_nan_of_less hx).2
  · obtain rfl := less_zero_infinite_iff.mp hx
    exact less_zero_infinite_iff.mpr rfl
  · obtain ⟨rfl, -⟩ := less_zero_finite_iff.mp hx
    have hdiv : (finite false a / finite false b : Number F) =
        ofRank false (F.nearest (F.units a * F.one) (F.units b)) := if_neg hb
    rw [hdiv, magnitude_ofRank] at hpos
    rw [hdiv, less_zero_iff]
    refine ⟨_, order?_ofRank .., ?_⟩
    have hrank : F.nearest (F.units a * F.one) (F.units b) ≠ 0 := by
      intro h0
      rw [h0, F.units_zero] at hpos
      omega
    simp only [Bool.false_eq_true, if_false]
    omega

/-- Only a number above zero is above zero when it is divided, and only by a finite one. -/
theorem of_less_zero_div (hy : Number.less 0 y = true) (h : Number.less 0 (x / y) = true) :
    Number.less 0 x = true ∧ y.isFinite = true := by
  obtain ⟨t, b, rfl⟩ := isFinite_iff.mp (isFinite_divisor h)
  obtain ⟨rfl, hb⟩ := less_zero_finite_iff.mp hy
  have : F.HasZero := ⟨b.pos⟩
  refine ⟨?_, rfl⟩
  rcases x with _ | s | ⟨s, a⟩
  · exact absurd rfl (ne_nan_of_less h).2
  · change Number.less 0 (infinite (s != false)) = true at h
    rw [less_zero_infinite_iff] at h ⊢
    simpa using h
  · change Number.less 0 (if b.val = 0 then _ else
      ofRank (s != false) (F.nearest (F.units a * F.one) (F.units b))) = true at h
    rw [if_neg hb] at h
    obtain ⟨p, hp, hpos⟩ := less_zero_iff.mp h
    rw [order?_ofRank] at hp
    obtain rfl := Option.some.inj hp
    rw [less_zero_finite_iff]
    constructor
    · cases s with
      | false => rfl
      | true => simp at hpos; omega
    · intro h0
      have hunits := F.units_pos (Nat.pos_of_ne_zero hb)
      rw [h0, F.units_zero, Nat.zero_mul, F.nearest_zero hunits] at hpos
      cases s <;> simp at hpos

end OnlineLearning.Number
