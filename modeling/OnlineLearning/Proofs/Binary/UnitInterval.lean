import OnlineLearning.Binary.Arithmetic
import OnlineLearning.Proofs.Binary.Widening

/-! # Signs, and the interval from zero to one

The sign of a rounded product follows from the signs of its factors, whatever overflows, is lost or
is undefined on the way; so `p * x * x` has no minus sign when `p` has none. From there
`InUnit.one_div_add`: a number above zero and at most one does not leave this interval upwards
when something without a minus sign is added to its reciprocal. -/

namespace OnlineLearning

namespace Format

/-- The rank of one. -/
def rankOne (F : Format) : Nat := F.nearest F.one 1

theorem units_rankOne (F : Format) : F.units F.rankOne = F.one := by
  obtain ⟨r, hr⟩ := F.exists_units_eq F.scale (k := 1) (by have := F.stride_pos; omega)
  rw [rankOne, one, ← hr, nearest_units]

/-- The rank of the rounded reciprocal of rank `r`. -/
def reciprocal (F : Format) (r : Nat) : Nat := F.nearest (F.one * F.one) (F.units r)

theorem rankOne_le_reciprocal (F : Format) {r : Nat} (h0 : 0 < r) (h : r ≤ F.rankOne) :
    F.rankOne ≤ F.reciprocal r := by
  refine F.le_nearest (F.units_pos h0) ?_
  have hle := F.units_le_iff.mpr h
  rw [units_rankOne] at hle ⊢
  exact Nat.mul_le_mul_left _ hle

theorem rankOne_pos (F : Format) : 0 < F.rankOne := by
  rw [← F.units_lt_iff, units_zero, units_rankOne]
  exact F.one_pos

theorem reciprocal_le_rankOne (F : Format) {r : Nat} (h : F.rankOne ≤ r) : F.reciprocal r ≤ F.rankOne := by
  refine F.nearest_le (F.units_pos (Nat.lt_of_lt_of_le F.rankOne_pos h)) ?_
  have hle := F.units_le_iff.mpr h
  rw [units_rankOne] at hle ⊢
  exact Nat.mul_le_mul_left _ hle

end Format

namespace Number
variable {F : Format} {x y : Number F} {s t : Bool}

/-- A number with a given sign; not-a-number has both. -/
inductive HasSign (s : Bool) : Number F → Prop where
  | nan : HasSign s .nan
  | infinite : HasSign s (.infinite s)
  | finite (r : Fin F.top) : HasSign s (.finite s r)

/-- Above zero and at most one. -/
structure InUnit (x : Number F) : Prop where
  pos : Number.less 0 x = true
  le_one : x.atMost 1 = true

/-! ### Places -/

theorem zero_eq : (0 : Number F) = ofRank false 0 := by
  show roundUnits false (0 * (F.one : Int)) = _
  rw [Int.zero_mul]
  rfl

theorem one_eq : (1 : Number F) = ofRank false F.rankOne := by
  show roundUnits false (1 * (F.one : Int)) = _
  obtain ⟨n, hn⟩ := Nat.exists_eq_succ_of_ne_zero (Nat.ne_of_gt F.one_pos)
  rw [Int.one_mul, Format.rankOne, hn]
  rfl

theorem ofRank_min (s : Bool) (r : Nat) : (ofRank s (min r F.top) : Number F) = ofRank s r := by
  rcases Nat.lt_or_ge r F.top with h | h
  · rw [Nat.min_eq_left (Nat.le_of_lt h)]
  · rw [Nat.min_eq_right h, ofRank, ofRank, dif_neg (Nat.lt_irrefl _), dif_neg (Nat.not_lt.mpr h)]

theorem order?_ofRank_false (r : Nat) :
    (ofRank false r : Number F).order? = some ((min r F.top : Nat) : Int) := by
  unfold ofRank
  split <;> simp only [order?, Bool.false_eq_true, if_false] <;> congr 2 <;> omega

theorem less_zero_iff : Number.less 0 x = true ↔ ∃ a, x.order? = some a ∧ 0 < a := by
  rw [less_iff, zero_eq, order?_ofRank_false]
  constructor
  · rintro ⟨a, b, ha, hb, h⟩
    obtain rfl := Option.some.inj ha
    exact ⟨b, hb, by omega⟩
  · rintro ⟨b, hb, h⟩
    exact ⟨_, b, rfl, hb, by omega⟩

theorem ofRank_atMost_iff {r p : Nat} :
    (ofRank false r : Number F).atMost (ofRank false p) = true ↔ min r F.top ≤ min p F.top := by
  unfold atMost
  rw [order?_ofRank_false, order?_ofRank_false]
  exact decide_eq_true_iff.trans Int.ofNat_le

theorem InUnit.exists_rank (hone : F.rankOne < F.top) (h : x.InUnit) :
    ∃ r : Fin F.top, 0 < r.val ∧ r.val ≤ F.rankOne ∧ x = finite false r := by
  obtain ⟨a, ha, ha0⟩ := less_zero_iff.mp h.pos
  obtain ⟨b, c, hb, hc, hbc⟩ := atMost_iff.mp h.le_one
  rw [ha] at hb
  rw [one_eq, order?_ofRank_false] at hc
  obtain rfl := Option.some.inj hb
  obtain rfl := Option.some.inj hc
  rcases x with _ | s | ⟨s, r⟩
  · simp [order?] at ha
  · cases s <;> simp [order?] at ha <;> omega
  · cases s <;> simp [order?] at ha
    · exact ⟨r, by omega, by omega, rfl⟩
    · omega

section
variable {G : Format} (h : F.Within G) (hone : F.rankOne < F.top)
include h

theorem convert_zero : (0 : Number F).convert G = 0 := by
  rw [zero_eq, zero_eq, ofRank_of_lt h.top_pos, convert_finite h,
    ofRank_of_lt (Nat.lt_of_le_of_lt (Nat.zero_le _) (h.nearest_lt_top h.top_pos))]
  simp only [F.units_zero, Nat.zero_mul, G.nearest_zero F.one_pos]

include hone

omit h in
theorem convert_one : (1 : Number F).convert G = 1 := by
  have hr := G.nearest_scale G.one 1 F.one_pos
  rw [Nat.one_mul] at hr
  rw [one_eq, one_eq, ofRank_of_lt hone]
  show ofRank false (G.nearest (F.units F.rankOne * G.one) F.one) = _
  rw [F.units_rankOne, Nat.mul_comm, hr]
  rfl

theorem InUnit.convert (hx : x.InUnit) : (x.convert G).InUnit := by
  constructor
  · rw [← convert_zero h, less_convert h]
    exact hx.pos
  · rw [← convert_one hone, atMost_convert h]
    exact hx.le_one

end

/-! ### Signs -/

theorem hasSign_ofRank (s : Bool) (r : Nat) : (ofRank s r : Number F).HasSign s := by
  unfold ofRank
  split
  · exact .finite _
  · exact .infinite

theorem exists_hasSign : ∀ x : Number F, ∃ s, x.HasSign s
  | .nan => ⟨false, .nan⟩
  | .infinite s => ⟨s, .infinite⟩
  | .finite s r => ⟨s, .finite r⟩

theorem HasSign.exists_rank (h : x.HasSign s) : x = .nan ∨ ∃ r, r ≤ F.top ∧ x = ofRank s r := by
  cases h with
  | nan => exact .inl rfl
  | infinite => exact .inr ⟨F.top, Nat.le_refl _, by simp [ofRank]⟩
  | finite r => exact .inr ⟨r, Nat.le_of_lt r.isLt, (ofRank_of_lt r.isLt).symm⟩

theorem hasSign_of_less_zero (h : Number.less 0 x = true) : x.HasSign false := by
  obtain ⟨a, ha, ha0⟩ := less_zero_iff.mp h
  rcases x with _ | s | ⟨s, r⟩
  · exact .nan
  · cases s
    · exact .infinite
    · simp [order?] at ha
      omega
  · cases s
    · exact .finite r
    · simp [order?] at ha
      omega

theorem HasSign.convert {G : Format} (h : x.HasSign s) : (x.convert G).HasSign s := by
  cases h with
  | nan => exact .nan
  | infinite => exact .infinite
  | finite r => exact hasSign_ofRank _ _

theorem HasSign.mul (hx : x.HasSign s) (hy : y.HasSign t) : (x * y).HasSign (s != t) := by
  show (Number.mul x y).HasSign (s != t)
  cases hx with
  | nan => exact .nan
  | infinite =>
    cases hy with
    | nan => exact .nan
    | infinite => exact .infinite
    | finite b =>
      show HasSign _ (if b.val = 0 then .nan else .infinite (s != t))
      split
      · exact .nan
      · exact .infinite
  | finite a =>
    cases hy with
    | nan => exact .nan
    | infinite =>
      show HasSign _ (if a.val = 0 then .nan else .infinite (s != t))
      split
      · exact .nan
      · exact .infinite
    | finite b => exact hasSign_ofRank _ _

theorem HasSign.mul_mul_self (hx : x.HasSign s) (y : Number F) : (x * y * y).HasSign s := by
  obtain ⟨t, ht⟩ := exists_hasSign y
  have h := (hx.mul ht).mul ht
  rwa [Bool.bne_assoc, bne_self_eq_false, Bool.bne_false] at h

/-! ### Reciprocals -/

section
variable (hone : F.rankOne < F.top)
include hone

theorem one_div_finite {r : Fin F.top} (hr : 0 < r.val) :
    (1 : Number F) / finite false r = ofRank false (F.reciprocal r) := by
  rw [one_eq, ofRank_of_lt hone]
  show (if r.val = 0 then _ else round false (F.units F.rankOne * F.one) (F.units r)) = _
  rw [if_neg (Nat.ne_of_gt hr), F.units_rankOne]
  rfl

theorem one_div_infinite : (1 : Number F) / infinite false = ofRank false 0 := by
  rw [one_eq, ofRank_of_lt hone]
  rfl

theorem InUnit.one_div (h : x.InUnit) :
    ∃ r, F.rankOne ≤ r ∧ r ≤ F.top ∧ 1 / x = ofRank false r := by
  obtain ⟨r, hr0, hr1, rfl⟩ := h.exists_rank hone
  have hle := F.rankOne_le_reciprocal hr0 hr1
  refine ⟨min (F.reciprocal r) F.top, by omega, Nat.min_le_right .., ?_⟩
  rw [ofRank_min, one_div_finite hone hr0]

theorem one_div_ofRank {r : Nat} (h : F.rankOne ≤ r) :
    ∃ q, q ≤ F.rankOne ∧ (1 : Number F) / ofRank false r = ofRank false q := by
  rcases Nat.lt_or_ge r F.top with hr | hr
  · rw [ofRank_of_lt hr, one_div_finite hone (Nat.lt_of_lt_of_le F.rankOne_pos h)]
    exact ⟨F.reciprocal r, F.reciprocal_le_rankOne h, rfl⟩
  · rw [ofRank, dif_neg (Nat.not_lt.mpr hr), one_div_infinite hone]
    exact ⟨0, Nat.zero_le _, rfl⟩

end

theorem roundUnits_natCast (n : Nat) : (roundUnits false (n : Int) : Number F) = ofRank false (F.nearest n 1) := by
  cases n with
  | zero =>
    rw [F.nearest_zero Nat.one_pos]
    rfl
  | succ n => rfl

theorem ofRank_add {r : Nat} (hr : r ≤ F.top) (hy : y.HasSign false) :
    ofRank false r + y = nan ∨ ∃ q, r ≤ q ∧ ofRank false r + y = ofRank false q := by
  rcases hy.exists_rank with rfl | ⟨b, hb, rfl⟩
  · exact .inl (add_nan _)
  right
  rcases Nat.lt_or_eq_of_le hr with hr | rfl
  · rcases Nat.lt_or_eq_of_le hb with hb | rfl
    · refine ⟨F.nearest (F.units r + F.units b) 1, F.le_nearest Nat.one_pos (by omega), ?_⟩
      rw [ofRank_of_lt hr, ofRank_of_lt hb, ← roundUnits_natCast, Int.natCast_add]
      rfl
    · refine ⟨F.top, Nat.le_of_lt hr, ?_⟩
      rw [ofRank_of_lt hr, ofRank, dif_neg (Nat.lt_irrefl _)]
      rfl
  · refine ⟨F.top, Nat.le_refl _, ?_⟩
    have htop : (ofRank false F.top : Number F) = infinite false := dif_neg (Nat.lt_irrefl _)
    rcases Nat.lt_or_eq_of_le hb with hb | rfl
    · rw [htop, ofRank_of_lt hb]
      rfl
    · rw [htop]
      rfl

/-- Something without a minus sign added to the reciprocal keeps a number from rising above one. -/
theorem InUnit.one_div_add (hone : F.rankOne < F.top) (hx : x.InUnit) (hy : y.HasSign false)
    (h : Number.less 0 (1 / (1 / x + y)) = true) : (1 / (1 / x + y)).InUnit := by
  refine ⟨h, ?_⟩
  obtain ⟨r, hr, hrt, hrx⟩ := hx.one_div hone
  rw [hrx] at h ⊢
  rcases ofRank_add hrt hy with hn | ⟨q, hq, hs⟩
  · rw [hn, div_nan, less_zero_iff] at h
    obtain ⟨a, ha, -⟩ := h
    cases ha
  · obtain ⟨p, hp, he⟩ := one_div_ofRank hone (Nat.le_trans hr hq)
    rw [hs, he, one_eq]
    exact ofRank_atMost_iff.mpr (by omega)

end Number

end OnlineLearning
