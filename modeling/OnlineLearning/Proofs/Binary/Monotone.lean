import OnlineLearning.Proofs.Binary.Magnitude
import OnlineLearning.Proofs.Binary.Opposite

/-!
# Sums beside the order

Rounding keeps the order, so sums keep it (`atMost_add_right`), also where they overflow; only what is undefined
has no place in the order. From there: a number is not above its sum with one that is not below zero
(`atMost_add_self`), and bounds of two numbers bound their difference (`sub_atMost_sub`).
-/

namespace OnlineLearning

namespace Format
variable (F : Format)

/-- The place of a whole number of units once it is rounded. -/
def place (n : Int) : Int := n.sign * (min (F.nearest n.natAbs 1) F.top : Nat)

theorem place_mono {m n : Int} (h : m ≤ n) : F.place m ≤ F.place n := by
  have hmono : ∀ {a b : Nat}, a ≤ b → min (F.nearest a 1) F.top ≤ min (F.nearest b 1) F.top := by
    intro a b hab
    have hrank : F.nearest a 1 ≤ F.nearest b 1 := F.nearest_mono Nat.one_pos Nat.one_pos (by omega)
    omega
  unfold place
  rcases Int.lt_trichotomy m 0 with hm | rfl | hm
  · rw [Int.sign_eq_neg_one_of_neg hm]
    rcases Int.lt_trichotomy n 0 with hn | rfl | hn
    · rw [Int.sign_eq_neg_one_of_neg hn]
      have := hmono (show n.natAbs ≤ m.natAbs by omega)
      omega
    · rw [Int.sign_zero]
      omega
    · rw [Int.sign_eq_one_of_pos hn]
      omega
  · rw [Int.sign_zero]
    rcases Int.lt_or_eq_of_le h with hn | rfl
    · rw [Int.sign_eq_one_of_pos hn]
      omega
    · exact Int.le_refl _
  · rw [Int.sign_eq_one_of_pos hm, Int.sign_eq_one_of_pos (Int.lt_of_lt_of_le hm h)]
    have := hmono (show m.natAbs ≤ n.natAbs by omega)
    omega

end Format

namespace Number
variable {F : Format} {x y z : Number F}

/-! ### The order -/

theorem order?_eq_none_iff : x.order? = none ↔ x = nan := by
  cases x <;> simp [order?]

theorem atMost_refl (h : x ≠ nan) : x.atMost x = true := by
  rw [atMost_eq_not_less h h, less_irrefl]
  rfl

theorem atMost_trans (h : x.atMost y = true) (k : y.atMost z = true) : x.atMost z = true := by
  obtain ⟨a, b, ha, hb, hab⟩ := atMost_iff.mp h
  obtain ⟨b', c, hb', hc, hbc⟩ := atMost_iff.mp k
  rw [hb] at hb'
  obtain rfl := Option.some.inj hb'
  exact atMost_iff.mpr ⟨a, c, ha, hc, Int.le_trans hab hbc⟩

theorem ne_nan_of_atMost (h : x.atMost y = true) : x ≠ nan ∧ y ≠ nan := by
  obtain ⟨a, b, ha, hb, -⟩ := atMost_iff.mp h
  constructor <;> rintro rfl
  · cases ha
  · cases hb

theorem less_of_less_of_atMost (h : x.less y = true) (k : y.atMost z = true) : x.less z = true := by
  obtain ⟨a, b, ha, hb, hab⟩ := less_iff.mp h
  obtain ⟨b', c, hb', hc, hbc⟩ := atMost_iff.mp k
  rw [hb] at hb'
  obtain rfl := Option.some.inj hb'
  exact less_iff.mpr ⟨a, c, ha, hc, Int.lt_of_lt_of_le hab hbc⟩

theorem less_of_atMost_of_less (h : x.atMost y = true) (k : y.less z = true) : x.less z = true := by
  obtain ⟨a, b, ha, hb, hab⟩ := atMost_iff.mp h
  obtain ⟨b', c, hb', hc, hbc⟩ := less_iff.mp k
  rw [hb] at hb'
  obtain rfl := Option.some.inj hb'
  exact less_iff.mpr ⟨a, c, ha, hc, Int.lt_of_le_of_lt hab hbc⟩

theorem atMost_of_less (h : x.less y = true) : x.atMost y = true := by
  obtain ⟨a, b, ha, hb, hab⟩ := less_iff.mp h
  exact atMost_iff.mpr ⟨a, b, ha, hb, Int.le_of_lt hab⟩

theorem atMost_of_less_next {k : Int} (hy : y.order? = some (k + 1)) (hz : z.order? = some k)
    (h : x.less y = true) : x.atMost z = true := by
  obtain ⟨a, b, ha, hb, hab⟩ := less_iff.mp h
  rw [hy] at hb
  obtain rfl := Option.some.inj hb
  exact atMost_iff.mpr ⟨a, k, ha, hz, by omega⟩

theorem less_of_not_atMost (hx : x ≠ nan) (hy : y ≠ nan) (h : x.atMost y = false) : y.less x = true := by
  rw [atMost_eq_not_less hx hy] at h
  simpa using h

theorem atMost_of_not_less (hx : x ≠ nan) (hy : y ≠ nan) (h : y.less x = false) : x.atMost y = true := by
  rw [atMost_eq_not_less hx hy, h]
  rfl

theorem atMost_total (hx : x ≠ nan) (hy : y ≠ nan) : x.atMost y = true ∨ y.atMost x = true := by
  cases h : y.less x with
  | true => exact .inr (atMost_of_less h)
  | false => exact .inl (atMost_of_not_less hx hy h)

theorem same_iff_atMost : x.same y = true ↔ x.atMost y = true ∧ y.atMost x = true := by
  rw [same_iff, atMost_iff, atMost_iff]
  constructor
  · rintro ⟨p, hx, hy⟩
    exact ⟨⟨p, p, hx, hy, Int.le_refl _⟩, ⟨p, p, hy, hx, Int.le_refl _⟩⟩
  · rintro ⟨⟨a, b, ha, hb, hab⟩, ⟨c, d, hc, hd, hcd⟩⟩
    rw [hb] at hc
    rw [ha] at hd
    obtain rfl := Option.some.inj hc
    obtain rfl := Option.some.inj hd
    exact ⟨a, ha, by rw [hb, Int.le_antisymm hab hcd]⟩

theorem next_atMost_of_not_atMost {k : Int} (hx : x ≠ nan) (hy : y.order? = some k)
    (hz : z.order? = some (k + 1)) (h : x.atMost y = false) : z.atMost x = true := by
  cases ha : x.order? with
  | none => exact absurd (order?_eq_none_iff.mp ha) hx
  | some a =>
    refine atMost_iff.mpr ⟨k + 1, a, hz, ha, Int.not_lt.mp fun hlt => ?_⟩
    rw [atMost_iff.mpr ⟨a, k, ha, hy, by omega⟩] at h
    cases h

theorem order?_ofRank (s : Bool) (r : Nat) :
    (ofRank s r : Number F).order? = some (if s then -((min r F.top : Nat) : Int) else (min r F.top : Nat)) := by
  cases s with
  | false => exact order?_ofRank_false r
  | true =>
    unfold ofRank
    split <;> simp only [order?, if_true] <;> congr 3 <;> omega

theorem ofRank_ne_nan (s : Bool) (r : Nat) : (ofRank s r : Number F) ≠ nan := by
  unfold ofRank
  split <;> nofun

theorem ne_nan_of_isFinite (h : x.isFinite = true) : x ≠ nan := by
  rintro rfl
  cases h

theorem order?_bounds {a : Int} (h : x.order? = some a) : -(F.top : Int) ≤ a ∧ a ≤ F.top := by
  rcases x with _ | s | ⟨s, r⟩
  · cases h
  · cases s <;> simp [order?] at h <;> omega
  · have := r.isLt
    cases s <;> simp [order?] at h <;> omega

theorem zero_eq_finite [F.HasZero] : (0 : Number F) = finite false ⟨0, F.top_pos⟩ := by
  rw [zero_eq, ofRank_of_lt F.top_pos]

theorem zero_ne_infinite [F.HasZero] (s : Bool) : (0 : Number F) ≠ infinite s := by
  rw [zero_eq_finite]
  nofun

theorem atMost_infinite (h : x ≠ nan) : x.atMost (infinite false) = true := by
  cases hx : x.order? with
  | none => exact absurd (order?_eq_none_iff.mp hx) h
  | some a => exact atMost_iff.mpr ⟨a, F.top, hx, rfl, (order?_bounds hx).2⟩

theorem infinite_atMost (h : x ≠ nan) : (infinite true).atMost x = true := by
  cases hx : x.order? with
  | none => exact absurd (order?_eq_none_iff.mp hx) h
  | some a => exact atMost_iff.mpr ⟨-F.top, a, rfl, hx, (order?_bounds hx).1⟩

theorem eq_infinite_of_atMost [F.HasZero] (h : (infinite false : Number F).atMost x = true) :
    x = infinite false := by
  obtain ⟨a, b, ha, hb, hab⟩ := atMost_iff.mp h
  obtain rfl : (F.top : Int) = a := Option.some.inj ha
  rcases x with _ | s | ⟨s, r⟩
  · cases hb
  · have htop := F.top_pos
    cases s <;> simp [order?] at hb ⊢
    omega
  · have := r.isLt
    cases s <;> simp [order?] at hb <;> omega

theorem eq_infinite_of_atMost' [F.HasZero] (h : x.atMost (infinite true) = true) :
    x = infinite true := by
  obtain ⟨a, b, ha, hb, hab⟩ := atMost_iff.mp h
  obtain rfl : -(F.top : Int) = b := Option.some.inj hb
  rcases x with _ | s | ⟨s, r⟩
  · cases ha
  · have htop := F.top_pos
    cases s <;> simp [order?] at ha ⊢
    omega
  · have := r.isLt
    cases s <;> simp [order?] at ha <;> omega

theorem eq_infinite_or_finite [F.HasZero] (h : Number.atMost 0 x = true) :
    x = infinite false ∨ ∃ s a, x = finite s a := by
  rcases x with _ | s | ⟨s, a⟩
  · exact absurd rfl (ne_nan_of_atMost h).2
  · cases s with
    | false => exact .inl rfl
    | true => exact absurd (eq_infinite_of_atMost' h) (zero_ne_infinite true)
  · exact .inr ⟨s, a, rfl⟩

theorem isFinite_of_less [F.HasZero] (h : Number.atMost 0 x = true) (hlt : x.less y = true) : x.isFinite = true := by
  rcases eq_infinite_or_finite h with rfl | ⟨s, a, rfl⟩
  · have hy := eq_infinite_of_atMost (atMost_of_less hlt)
    rw [hy, less_irrefl] at hlt
    cases hlt
  · rfl

theorem atMost_finite_iff {s t : Bool} {a b : Fin F.top} :
    (finite s a : Number F).atMost (finite t b) = true ↔ signedUnits F s a ≤ signedUnits F t b := by
  rw [atMost_eq_not_less (by simp) (by simp), Bool.not_eq_true', ← Bool.not_eq_true, less_finite_iff, Int.not_lt]

theorem order?_roundUnits (s : Bool) (n : Int) : (roundUnits s n : Number F).order? = some (F.place n) := by
  match n with
  | .ofNat 0 =>
    show (ofRank s 0 : Number F).order? = some (0 * _)
    rw [order?_ofRank, Int.zero_mul]
    cases s <;> simp
  | .ofNat (n + 1) =>
    show (ofRank false (F.nearest (n + 1) 1) : Number F).order? = some (1 * _)
    rw [order?_ofRank, Int.one_mul]
    rfl
  | .negSucc n =>
    show (ofRank true (F.nearest (n + 1) 1) : Number F).order? = some (-1 * _)
    rw [order?_ofRank, Int.neg_one_mul]
    rfl

theorem order?_finite (s : Bool) (a : Fin F.top) :
    (finite s a : Number F).order? = some (F.place (signedUnits F s a)) := by
  have hmin : min (F.nearest (F.units a) 1) F.top = a := by
    have := a.isLt
    rw [F.nearest_units]
    omega
  rcases Nat.eq_zero_or_pos a with h0 | hpos
  · have hunits : signedUnits F s a = 0 := by
      unfold signedUnits
      cases s <;> simp [h0]
    rw [hunits]
    cases s <;> simp [order?, h0, Format.place]
  · have hunits := F.units_pos hpos
    unfold Format.place signedUnits
    cases s with
    | false =>
      rw [if_neg (by decide), Int.sign_eq_one_of_pos (by omega), Int.natAbs_natCast, hmin, Int.one_mul]
      rfl
    | true =>
      rw [if_pos rfl, Int.sign_eq_neg_one_of_neg (by omega), Int.natAbs_neg, Int.natAbs_natCast, hmin,
        Int.neg_one_mul]
      rfl

/-! ### Sums -/

theorem finite_add_finite (s t : Bool) (a b : Fin F.top) :
    finite s a + finite t b = (roundUnits (s && t) (signedUnits F s a + signedUnits F t b) : Number F) := rfl

theorem roundUnits_ne_nan (s : Bool) (n : Int) : (roundUnits s n : Number F) ≠ nan := by
  rw [ne_eq, ← order?_eq_none_iff, order?_roundUnits]
  nofun

theorem add_ne_nan (hx : x.isFinite = true) (hy : y ≠ nan) : x + y ≠ nan := by
  obtain ⟨s, a, rfl⟩ := isFinite_iff.mp hx
  rcases y with _ | t | ⟨t, b⟩
  · exact absurd rfl hy
  · nofun
  · exact roundUnits_ne_nan _ _

theorem sub_ne_nan (hx : x.isFinite = true) (hy : y ≠ nan) : x - y ≠ nan := by
  refine add_ne_nan (y := -y) hx fun hneg => hy ?_
  rw [← neg_neg y, hneg]
  rfl

theorem add_infinite {s : Bool} (h : x + infinite s ≠ nan) : x + infinite s = infinite s := by
  rcases x with _ | t | ⟨t, a⟩
  · exact absurd (nan_add _) h
  · cases s <;> cases t <;> first | rfl | exact absurd rfl h
  · rfl

theorem infinite_add {s : Bool} (h : infinite s + x ≠ nan) : infinite s + x = infinite s := by
  rcases x with _ | t | ⟨t, a⟩
  · exact absurd (add_nan _) h
  · cases s <;> cases t <;> first | rfl | exact absurd rfl h
  · rfl

theorem atMost_add_right (h : x.atMost y = true) (hx : x + z ≠ nan) (hy : y + z ≠ nan) :
    (x + z).atMost (y + z) = true := by
  rcases z with _ | u | ⟨u, c⟩
  · exact absurd (add_nan x) hx
  · rw [add_infinite hx, add_infinite hy]
    exact atMost_refl (by simp)
  have : F.HasZero := ⟨c.pos⟩
  rcases x with _ | s | ⟨s, a⟩
  · exact absurd (nan_add _) hx
  · cases s with
    | true =>
      rw [infinite_add hx]
      exact infinite_atMost hy
    | false =>
      rw [eq_infinite_of_atMost h]
      exact atMost_refl hx
  · rcases y with _ | t | ⟨t, b⟩
    · exact absurd (nan_add _) hy
    · cases t with
      | false =>
        rw [infinite_add hy]
        exact atMost_infinite hx
      | true => cases eq_infinite_of_atMost' h
    · rw [finite_add_finite, finite_add_finite]
      refine atMost_iff.mpr ⟨_, _, order?_roundUnits .., order?_roundUnits .., F.place_mono ?_⟩
      have := atMost_finite_iff.mp h
      omega

theorem atMost_add_left (h : x.atMost y = true) (hx : z + x ≠ nan) (hy : z + y ≠ nan) :
    (z + x).atMost (z + y) = true := by
  rw [add_comm z x] at hx ⊢
  rw [add_comm z y] at hy ⊢
  exact atMost_add_right h hx hy

/-- Sums keep the order of both terms, also where the second number and the third have no sum. -/
theorem add_atMost_add [F.HasZero] {w : Number F} (h : x.atMost y = true) (k : z.atMost w = true)
    (hx : x + z ≠ nan) (hy : y + w ≠ nan) : (x + z).atMost (y + w) = true := by
  by_cases hyz : y + z = nan
  · rcases y with _ | s | ⟨s, a⟩
    · exact absurd (nan_add w) hy
    · rcases z with _ | t | ⟨t, b⟩
      · exact absurd (add_nan x) hx
      · rw [add_infinite hx, infinite_add hy]
        cases s with
        | false => exact atMost_infinite (by simp)
        | true =>
          obtain rfl := eq_infinite_of_atMost' h
          cases t with
          | true => exact infinite_atMost (by simp)
          | false => exact absurd rfl hx
      · cases hyz
    · exact absurd hyz (add_ne_nan rfl (ne_nan_of_atMost k).1)
  · exact atMost_trans (atMost_add_right h hx hyz) (atMost_add_left k hyz hy)

theorem atMost_neg (h : x.atMost y = true) : (-y).atMost (-x) = true := by
  obtain ⟨a, b, ha, hb, hab⟩ := atMost_iff.mp h
  exact atMost_iff.mpr ⟨-b, -a, by rw [order?_neg, hb]; rfl, by rw [order?_neg, ha]; rfl, by omega⟩

theorem atMost_zero_neg (y : Number F) : Number.atMost 0 (-y) = y.atMost 0 := by
  unfold atMost
  rw [order?_neg, zero_eq, order?_ofRank]
  cases y.order? with
  | none => rfl
  | some p => simp

theorem add_ne_nan_of_nonneg [F.HasZero] (hx : Number.atMost 0 x = true) (hy : Number.atMost 0 y = true) :
    x + y ≠ nan := by
  rcases eq_infinite_or_finite hx with rfl | ⟨s, a, rfl⟩
  · rcases eq_infinite_or_finite hy with rfl | ⟨t, b, rfl⟩ <;> nofun
  · exact add_ne_nan rfl (ne_nan_of_atMost hy).2

theorem add_zero_order? [F.HasZero] (x : Number F) : (x + 0).order? = x.order? := by
  rw [zero_eq_finite]
  rcases x with _ | s | ⟨s, a⟩
  · rfl
  · rfl
  · rw [finite_add_finite, order?_roundUnits, order?_finite]
    congr 2
    simp [signedUnits]

theorem add_zero_ne_nan [F.HasZero] (h : x ≠ nan) : x + 0 ≠ nan := by
  rwa [ne_eq, ← order?_eq_none_iff, add_zero_order?, order?_eq_none_iff]

theorem atMost_add_self [F.HasZero] (hy : Number.atMost 0 y = true) (h : x + y ≠ nan) :
    x.atMost (x + y) = true := by
  have hx : x ≠ nan := by
    rintro rfl
    exact h (nan_add y)
  obtain ⟨a, b, ha, hb, hab⟩ := atMost_iff.mp (atMost_add_left (z := x) hy (add_zero_ne_nan hx) h)
  rw [add_zero_order?] at ha
  exact atMost_iff.mpr ⟨a, b, ha, hb, hab⟩

theorem sub_self_atMost [F.HasZero] (hy : Number.atMost 0 y = true) (h : x - y ≠ nan) :
    (x - y).atMost x = true := by
  have hneg : (-y).atMost 0 = true := by
    obtain ⟨a, b, ha, hb, hab⟩ := atMost_iff.mp (atMost_neg hy)
    rw [order?_neg, zero_eq, order?_ofRank] at hb
    rw [zero_eq]
    exact atMost_iff.mpr ⟨a, _, ha, order?_ofRank .., by simp_all⟩
  have hx : x ≠ nan := by
    rintro rfl
    exact h (nan_add _)
  obtain ⟨a, b, ha, hb, hab⟩ := atMost_iff.mp (atMost_add_left (z := x) hneg h (add_zero_ne_nan hx))
  rw [add_zero_order?] at hb
  exact atMost_iff.mpr ⟨a, b, ha, hb, hab⟩

theorem add_atMost_self [F.HasZero] (hy : y.atMost 0 = true) (h : x + y ≠ nan) :
    (x + y).atMost x = true := by
  have hsub : x - -y = x + y := by
    show x + - -y = x + y
    rw [neg_neg]
  rw [← hsub] at h ⊢
  exact sub_self_atMost (by rwa [atMost_zero_neg]) h

theorem atMost_sub_self [F.HasZero] (hy : y.atMost 0 = true) (h : x - y ≠ nan) :
    x.atMost (x - y) = true :=
  atMost_add_self (y := -y) (by rwa [atMost_zero_neg]) h

theorem atMost_sub_right (h : x.atMost y = true) (hx : x - z ≠ nan) (hy : y - z ≠ nan) :
    (x - z).atMost (y - z) = true :=
  atMost_add_right (z := -z) h hx hy

theorem atMost_sub_left (h : x.atMost y = true) (hx : z - x ≠ nan) (hy : z - y ≠ nan) :
    (z - y).atMost (z - x) = true :=
  atMost_add_left (z := z) (atMost_neg h) hy hx

/-- A difference is defined if one number has a finite bound below and the other one above. -/
theorem sub_ne_nan_of_atMost (hx : x.isFinite = true) (hxz : x.atMost z = true) (hy : y.isFinite = true)
    {w : Number F} (hwy : w.atMost y = true) : z - w ≠ nan := by
  obtain ⟨s, a, rfl⟩ := isFinite_iff.mp hx
  obtain ⟨t, b, rfl⟩ := isFinite_iff.mp hy
  have : F.HasZero := ⟨a.pos⟩
  rcases z with _ | u | ⟨u, c⟩
  · exact absurd rfl (ne_nan_of_atMost hxz).2
  · rcases w with _ | p | ⟨p, d⟩
    · exact absurd rfl (ne_nan_of_atMost hwy).1
    · cases u with
      | true => cases eq_infinite_of_atMost' hxz
      | false =>
        cases p with
        | true => nofun
        | false => cases eq_infinite_of_atMost hwy
    · nofun
  · exact sub_ne_nan rfl (ne_nan_of_atMost hwy).1

theorem sub_atMost_sub (hx : x.isFinite = true) (hxz : x.atMost z = true) (hy : y.isFinite = true)
    {w : Number F} (hwy : w.atMost y = true) : (x - y).atMost (z - w) = true := by
  have hyy := atMost_refl (ne_nan_of_isFinite hy)
  have hzy := sub_ne_nan_of_atMost hx hxz hy hyy
  exact atMost_trans (atMost_sub_right hxz (sub_ne_nan hx (ne_nan_of_isFinite hy)) hzy)
    (atMost_sub_left hwy (sub_ne_nan_of_atMost hx hxz hy hwy) hzy)

theorem order?_sub_swap [F.HasZero] (x y : Number F) :
    (x - y).order? = (y - x).order?.map fun p => -p := by
  have hopposite : Opposite (-y) y := opposite_iff_order?.mpr (order?_neg y)
  rw [← opposite_iff_order?]
  show Opposite (x + -y) (y - x)
  rw [add_comm x]
  exact hopposite.add_sub x

theorem atMost_zero_sub [F.HasZero] (h : x - y ≠ nan) : Number.atMost 0 (x - y) = y.atMost x := by
  have hx : x ≠ nan := by
    rintro rfl
    exact h (nan_add _)
  have hy : y ≠ nan := by
    rintro rfl
    exact h (add_nan _)
  have hless := less_zero_sub y x
  rw [atMost_eq_not_less hy hx, ← hless]
  unfold atMost less
  rw [order?_sub_swap x y, zero_eq, order?_ofRank]
  cases hp : (y - x).order? with
  | none =>
    have hnone : (x - y).order? = none := by rw [order?_sub_swap x y, hp]; rfl
    exact absurd (order?_eq_none_iff.mp hnone) h
  | some p =>
    simp only [Option.map_some, Nat.zero_min, Bool.false_eq_true, if_false]
    rw [← decide_not]
    exact decide_eq_decide.mpr (by omega)

theorem same_sub_sub (h : x.same y = true) (hx : x.isFinite = true) (hy : y.isFinite = true) (hz : z ≠ nan) :
    (x - z).same (y - z) = true := by
  obtain ⟨hle, hge⟩ := same_iff_atMost.mp h
  have hxz := sub_ne_nan hx hz
  have hyz := sub_ne_nan hy hz
  exact same_iff_atMost.mpr ⟨atMost_sub_right hle hxz hyz, atMost_sub_right hge hyz hxz⟩

theorem isFinite_of_same_zero [F.HasZero] (h : x.same 0 = true) : x.isFinite = true := by
  obtain ⟨p, hp, hzero⟩ := same_iff.mp h
  rw [zero_eq_finite] at hzero
  rcases x with _ | s | _
  · cases hp
  · exact absurd (hp.trans hzero.symm) (order?_infinite_ne _ _ _)
  · rfl

theorem sub_self_same_zero [F.HasZero] (hx : x.isFinite = true) : (x - x).same 0 = true := by
  obtain ⟨p, hp⟩ := Option.ne_none_iff_exists'.mp (mt order?_eq_none_iff.mp (sub_ne_nan hx (ne_nan_of_isFinite hx)))
  have hswap := order?_sub_swap x x
  rw [hp, Option.map_some, Option.some.injEq] at hswap
  have hzero : (0 : Number F).order? = some 0 := by
    rw [zero_eq_finite]
    rfl
  exact same_iff.mpr ⟨p, hp, by rw [hzero, show p = 0 by omega]⟩

end Number

end OnlineLearning
