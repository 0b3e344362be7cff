import OnlineLearning.Proofs.Binary.Nearest

/-! # Formats inside wider formats

When every magnitude of `F` is one of `G`, a number goes to `G` and back unchanged
(`convert_convert`) and keeps its place among the others (`less_convert`). Four-byte numbers lie
inside eight-byte numbers. -/

namespace OnlineLearning

/-- Every magnitude of `F` is a magnitude of `G`. -/
structure Format.Within (F G : Format) : Prop where
  precision_le : F.precision ≤ G.precision
  scale_le : F.scale ≤ G.scale
  top_le : F.units F.top * G.one ≤ G.units G.top * F.one
  top_pos : 0 < F.top

theorem Format.single_within_double : Format.single.Within Format.double :=
  ⟨by decide, by decide, by decide, by decide⟩

namespace Format
variable {F G : Format}

theorem exists_significand (F : Format) (r : Nat) : ∃ k e, k < 2 * F.stride ∧ F.units r = k <<< e := by
  rcases F.lt_stride_or_full r with hr | ⟨q, t, ht, rfl⟩
  · exact ⟨r, 0, by omega, F.units_of_lt (by omega)⟩
  · exact ⟨F.stride + t, q, by omega, F.units_full q ht⟩

namespace Within

theorem stride_le (h : F.Within G) : F.stride ≤ G.stride := by
  rw [stride, stride, Nat.one_shiftLeft, Nat.one_shiftLeft]
  exact Nat.pow_le_pow_right (by decide) (Nat.sub_le_sub_right h.precision_le 1)

theorem one_eq (h : F.Within G) : G.one = 1 <<< (G.scale - F.scale) * F.one := by
  rw [one, one, Nat.one_shiftLeft, Nat.one_shiftLeft, Nat.one_shiftLeft, ← Nat.pow_add, Nat.sub_add_cancel h.scale_le]

/-- The rank in `G` of a magnitude of `F` stands for the same size. -/
theorem units_nearest (h : F.Within G) (r : Nat) :
    G.units (G.nearest (F.units r * G.one) F.one) * F.one = F.units r * G.one := by
  obtain ⟨k, e, hk, hr⟩ := F.exists_significand r
  have hst := h.stride_le
  obtain ⟨s, hs⟩ := G.exists_units_eq (e + (G.scale - F.scale)) (k := k) (by omega)
  have hsize : F.units r * G.one = G.units s * F.one := by
    rw [hr, hs, h.one_eq, Nat.one_shiftLeft, Nat.shiftLeft_eq, Nat.shiftLeft_eq, Nat.pow_add, Nat.mul_assoc,
      Nat.mul_assoc, Nat.mul_assoc]
  have hone := G.nearest_scale (G.units s) 1 F.one_pos
  rw [Nat.one_mul, nearest_units] at hone
  rw [hsize, hone]

theorem nearest_lt_nearest_iff (h : F.Within G) {r s : Nat} :
    G.nearest (F.units r * G.one) F.one < G.nearest (F.units s * G.one) F.one ↔ r < s := by
  rw [← G.units_lt_iff, ← Nat.mul_lt_mul_right F.one_pos, h.units_nearest, h.units_nearest,
    Nat.mul_lt_mul_right G.one_pos, F.units_lt_iff]

theorem nearest_lt_top (h : F.Within G) {r : Nat} (hr : r < F.top) :
    G.nearest (F.units r * G.one) F.one < G.top := by
  rw [← G.units_lt_iff, ← Nat.mul_lt_mul_right F.one_pos, h.units_nearest]
  exact Nat.lt_of_lt_of_le (Nat.mul_lt_mul_of_pos_right (F.units_lt_of_lt hr) G.one_pos) h.top_le

end Within

end Format

namespace Number
variable {F G : Format}

theorem ofRank_of_lt {s : Bool} {r : Nat} (h : r < F.top) : (ofRank s r : Number F) = finite s ⟨r, h⟩ :=
  dif_pos h

theorem convert_finite (h : F.Within G) (s : Bool) (r : Fin F.top) :
    (finite s r : Number F).convert G =
      finite s ⟨G.nearest (F.units r * G.one) F.one, h.nearest_lt_top r.isLt⟩ :=
  ofRank_of_lt _

theorem convert_convert (h : F.Within G) (x : Number F) : (x.convert G).convert F = x := by
  cases x with
  | nan => rfl
  | infinite s => rfl
  | finite s r =>
    have hback := F.nearest_scale (F.units r) 1 G.one_pos
    rw [Nat.one_mul, Format.nearest_units] at hback
    rw [convert_finite h]
    show ofRank s (F.nearest (G.units _ * F.one) G.one) = _
    rw [h.units_nearest, hback, ofRank_of_lt r.isLt]

theorem atMost_eq_not_less {x y : Number F} (hx : x ≠ nan) (hy : y ≠ nan) :
    x.atMost y = !y.less x := by
  cases x <;> cases y <;> first | exact absurd rfl hx | exact absurd rfl hy | skip
  all_goals
    simp only [atMost, less, order?]
    rw [← decide_not]
    exact decide_eq_decide.mpr Int.not_lt.symm

/-- A number keeps its place among the others in a wider format. -/
theorem less_convert (h : F.Within G) (x y : Number F) :
    (x.convert G).less (y.convert G) = x.less y := by
  have hF := h.top_pos
  have hzero : G.nearest (F.units 0 * G.one) F.one = 0 := by
    rw [F.units_zero, Nat.zero_mul, G.nearest_zero F.one_pos]
  have hG : 0 < G.top := hzero ▸ h.nearest_lt_top hF
  rcases x with _ | s | ⟨s, a⟩
  · rfl
  · rcases y with _ | t | ⟨t, b⟩
    · rfl
    · cases s <;> cases t <;> simp [less, order?, convert] <;> omega
    · have hb := h.nearest_lt_top b.isLt
      have hb' := b.isLt
      rw [convert_finite h]
      cases s <;> cases t <;> simp [less, order?, convert] <;> omega
  · have ha := h.nearest_lt_top a.isLt
    have ha' := a.isLt
    rcases y with _ | t | ⟨t, b⟩
    · rw [convert_finite h]
      rfl
    · rw [convert_finite h]
      cases s <;> cases t <;> simp [less, order?, convert] <;> omega
    · have hlt := h.nearest_lt_nearest_iff (r := a) (s := b)
      have hgt := h.nearest_lt_nearest_iff (r := b) (s := a)
      have ha0 := h.nearest_lt_nearest_iff (r := 0) (s := a)
      have hb0 := h.nearest_lt_nearest_iff (r := 0) (s := b)
      rw [hzero] at ha0 hb0
      rw [convert_finite h, convert_finite h]
      cases s <;> cases t <;> simp [less, order?] <;> omega

theorem convert_eq_nan_iff {x : Number F} : x.convert G = nan ↔ x = nan := by
  cases x with
  | nan => exact ⟨fun _ => rfl, fun _ => rfl⟩
  | infinite s => simp [convert]
  | finite s r =>
    simp only [convert, round, ofRank]
    split <;> simp

theorem atMost_convert (h : F.Within G) (x y : Number F) :
    (x.convert G).atMost (y.convert G) = x.atMost y := by
  by_cases hx : x = nan
  · rw [hx]; rfl
  by_cases hy : y = nan
  · rw [hy]
    cases x <;> simp [atMost, convert, order?]
  rw [atMost_eq_not_less (mt convert_eq_nan_iff.mp hx) (mt convert_eq_nan_iff.mp hy), less_convert h,
    atMost_eq_not_less hx hy]

@[simp] theorem narrow_widen (x : Single) : x.widen.narrow = x :=
  convert_convert Format.single_within_double x

end Number

end OnlineLearning
