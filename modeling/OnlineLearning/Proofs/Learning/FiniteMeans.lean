import OnlineLearning.Proofs.Learning.StepBound
import OnlineLearning.Proofs.Learning.Training

/-!
# Means stay finite unless a step is infinite

The variance of a margin is at least what each coordinate adds to it, under the label and under its
rival. So a step that is not infinite moves each mean by so little that no mean leaves the lower half of
the format: `Weight.IsBounded` comes through a call (`isBounded_train`) and through a session. An infinite
step, on the other hand, spoils every mean that it touches.
-/

namespace OnlineLearning

namespace Store
variable {s : Store}

theorem le_foldl_variance (h : ∀ k, (s.get k).covariance.narrow.HasSign false) (cs : List Coordinate)
    (start : Single) (hstart : start.HasSign false) :
    let total := cs.foldl
      (fun sum c => sum + (s.get c.key).covariance.narrow * c.value.narrow * c.value.narrow) start
    total.HasSign false ∧ start.magnitude ≤ total.magnitude ∧
      ∀ c ∈ cs, ((s.get c.key).covariance.narrow * c.value.narrow * c.value.narrow).magnitude ≤
        total.magnitude := by
  induction cs generalizing start with
  | nil => exact ⟨hstart, Nat.le_refl _, fun c hc => absurd hc List.not_mem_nil⟩
  | cons c cs ih =>
    have hterm := (h c.key).mul_mul_self c.value.narrow
    obtain ⟨hsum, hpart⟩ := hstart.le_magnitude_add hterm
    obtain ⟨hsign, hle, hrest⟩ := ih _ (hstart.add hterm)
    refine ⟨hsign, Nat.le_trans hsum hle, List.forall_mem_cons.mpr ⟨Nat.le_trans hpart hle, hrest⟩⟩

theorem le_variance (h : ∀ k, (s.get k).covariance.narrow.HasSign false) (cs : List Coordinate) :
    (s.variance cs).HasSign false ∧
      ∀ c ∈ cs, ((s.get c.key).covariance.narrow * c.value.narrow * c.value.narrow).magnitude ≤
        (s.variance cs).magnitude := by
  obtain ⟨hsign, -, hle⟩ := le_foldl_variance h cs 0 (Number.hasSign_ofRank false 0)
  exact ⟨hsign, hle⟩

end Store

namespace Registry
variable {r : Registry} {cs : List Coordinate} {label l : Key} {c : Coordinate}

/-- What a coordinate adds to the variance, under the label or under its rival, is no more than the variance of
the margin. -/
theorem le_margin_variance (h : ∀ l k, (r.weight l k).covariance.narrow.HasSign false)
    (hl : l = label ∨ (r.margin true cs label).rival = some l) (hc : c ∈ cs) :
    ((r.weight l c.key).covariance.narrow * c.value.narrow * c.value.narrow).magnitude ≤
      (r.margin true cs label).variance.magnitude := by
  obtain ⟨hsign, hle⟩ := Store.le_variance (h label) cs
  rcases r.margin_cases true cs label with ⟨-, hmargin⟩ | ⟨-, -, hmargin⟩ | ⟨other, -, -, -, hmargin⟩ <;>
    rw [hmargin] at hl ⊢ <;> simp only [contender_variance]
  · obtain rfl := hl.resolve_right nofun
    exact Nat.le_trans (hle c hc) (Number.le_magnitude_mul_right (by decide))
  · obtain rfl := hl.resolve_right nofun
    exact Nat.le_trans (hle c hc) (hsign.le_magnitude_add (Number.hasSign_ofRank false 0)).1
  · obtain ⟨hsign', hle'⟩ := Store.le_variance (h other) cs
    obtain ⟨hown, hrival⟩ := hsign.le_magnitude_add hsign'
    rcases hl with rfl | hl
    · exact Nat.le_trans (hle c hc) hown
    · obtain ⟨rfl, -⟩ := Contender.label?_eq_some_iff.mp hl
      exact Nat.le_trans (hle' c hc) hrival

end Registry

/-- The lower half of the four-byte format, in units. -/
def Step.limit : Nat := 1 <<< 276

/-- A tame covariance, and a mean in the lower half of the four-byte format. -/
structure Weight.IsBounded (w : Weight) : Prop where
  tame : w.IsTame
  mean : ∃ m : Single, m.magnitude ≤ Step.limit ∧ w.mean = m.widen

namespace Number

theorem isFinite_widen (x : Single) : x.widen.isFinite = x.isFinite := by
  cases x with
  | finite s r =>
    show ((finite s r : Single).convert Format.double).isFinite = true
    rw [convert_finite Format.single_within_double]
    rfl
  | _ => rfl

theorem isFinite_of_le_limit {x : Single} (h : x.magnitude ≤ Step.limit) : x.isFinite = true :=
  isFinite_iff_magnitude.mpr (Nat.lt_of_le_of_lt h (by decide))

/-- What is far below a number in the lower half of the format does not take it out of there. -/
theorem units_nearest_le_limit {a b : Nat} (ha : a ≤ Step.limit) (hb : b ≤ 2 ^ 249) :
    Format.single.units (Format.single.nearest (a + b) 1) ≤ Step.limit := by
  have hbound : Format.single.units (Format.single.nearest (Step.limit + 2 ^ 249) 1) ≤ Step.limit := by
    decide
  refine Nat.le_trans (Format.single.units_le_iff.mpr ?_) hbound
  refine Format.single.nearest_mono Nat.one_pos Nat.one_pos ?_
  rw [Nat.mul_one, Nat.mul_one]
  exact Nat.add_le_add ha hb

end Number

namespace Weight

theorem IsTame.inUnit_narrow {w : Weight} (h : w.IsTame) : w.covariance.narrow.InUnit := by
  obtain ⟨c, hc, hw⟩ := h
  have hnarrow : c.widen.narrow = c := Number.narrow_widen c
  rwa [hw, hnarrow]

theorem IsBounded.isFinite {w : Weight} (h : w.IsBounded) : w.mean.isFinite = true := by
  obtain ⟨m, hm, hmean⟩ := h.mean
  rw [hmean, Number.isFinite_widen]
  exact Number.isFinite_of_le_limit hm

theorem isBounded_unseen : Weight.unseen.IsBounded :=
  ⟨isTame_unseen, 0, by decide, by decide +kernel⟩

end Weight

namespace Step
variable {size v c₀ x : Single} {w : Weight}

/-- A bounded weight whose covariance is within the reach of what it was before the step. -/
structure Kept (c₀ : Single) (w : Weight) : Prop where
  bounded : w.IsBounded
  reach : w.covariance.narrow.magnitude ≤ 2 ^ reach c₀

theorem magnitude_mean_le {m move : Single} (hm : m.magnitude ≤ limit) (hmove : move.magnitude ≤ 2 ^ 249)
    (toward : Bool) : (if toward then m + move else m - move).magnitude ≤ limit := by
  have hmf := Number.isFinite_of_le_limit hm
  have hmovef := Number.isFinite_of_magnitude_lt (k := 250) (by decide)
    (Nat.lt_of_le_of_lt hmove (Nat.pow_lt_pow_right (by decide) (by decide)))
  cases toward with
  | true => exact Nat.le_trans (Number.magnitude_add_le hmf hmovef) (Number.units_nearest_le_limit hm hmove)
  | false => exact Nat.le_trans (Number.magnitude_sub_le hmf hmovef) (Number.units_nearest_le_limit hm hmove)

theorem kept_apply (ha : Allowed size v) (hpos : Number.less 0 size = true) (h₀ : c₀.InUnit)
    (hv : (c₀ * x * x).magnitude ≤ v.magnitude) (toward : Bool) (hw : Kept c₀ w) :
    Kept c₀ (apply toward x size 1 w).1 := by
  have hphi : (1 : Single).HasSign false := Number.hasSign_of_less_zero (by decide)
  have hunit := hw.bounded.tame.inUnit_narrow
  obtain ⟨m, hm, hmean⟩ := hw.bounded.mean
  have hnarrow : ∀ y : Single, y.widen.narrow = y := Number.narrow_widen
  have hmove := magnitude_mean_le hm (magnitude_move_le ha h₀ hv hunit hw.reach) toward
  refine ⟨⟨isTame_apply hw.bounded.tame toward x hpos hphi, _, hmove, ?_⟩, ?_⟩
  · unfold apply
    dsimp only
    rw [hmean, hnarrow]
    split <;> rfl
  · unfold apply
    dsimp only
    split
    · rename_i hless
      rw [hnarrow]
      exact magnitude_shrink_le hunit hw.reach (Number.hasSign_of_less_zero hpos) hphi hless
    · have hleast : leastCovariance.magnitude = 2 ^ 23 := by decide
      rw [hnarrow, hleast]
      exact Nat.pow_le_pow_right (by decide) (by unfold Step.reach; omega)

end Step

namespace Registry
variable {r : Registry} {cs : List Coordinate} {key : Key} {size : Single}

/-- A step that the variance of the margin allows keeps each weight within the reach that it starts with. -/
theorem kept_step (hr : r.Everywhere Weight.IsBounded) (ha : Step.Allowed size (r.margin true cs key).variance)
    (hpos : Number.less 0 size = true) (l k : Key) :
    Step.Kept (r.weight l k).covariance.narrow
      ((r.step size 1 key (r.margin true cs key).rival cs).1.weight l k) := by
  have hsign : ∀ l k, (r.weight l k).covariance.narrow.HasSign false := fun l k =>
    Number.hasSign_of_less_zero (hr l k).tame.inUnit_narrow.pos
  refine step_induction (Q := fun r' => Step.Kept (r.weight l k).covariance.narrow (r'.weight l k))
    ⟨hr l k, Step.magnitude_le_reach (hr l k).tame.inUnit_narrow⟩ (fun r' l' _ hkept => ?_)
    fun r' l' c toward hl' hc hkept => ?_
  · rwa [weight_create]
  · rw [weight_set]
    split
    · rename_i hsame
      obtain ⟨hl, hk⟩ := Bool.and_eq_true_iff.mp hsame
      have hterm := le_margin_variance hsign hl' hc
      rw [weight_congr r hl hk] at hterm
      rw [weight_congr r' hl hk]
      exact Step.kept_apply ha hpos (hr l k).tame.inUnit_narrow hterm toward hkept
    · exact hkept

end Registry

namespace Learner
variable {r : Registry} {tokens label : Datum}

theorem narrow_standard : Confidence.standard.narrow = 1 := by decide +kernel

theorem isBounded_train (hr : r.Everywhere Weight.IsBounded)
    (hstep : ∀ key cs, readExample tokens label = .ok (key, cs) →
      stepSize r Confidence.standard cs key ≠ .infinite false) :
    ((confidenceWeighted Confidence.standard).train r tokens label).registry.Everywhere Weight.IsBounded := by
  unfold train
  split
  · exact hr
  rename_i key cs hread
  have hne := hstep key cs hread
  unfold stepSize at hne
  rw [narrow_standard] at hne
  simp only [learn, narrow_standard]
  split
  · rename_i hpos
    exact fun l k => (Registry.kept_step hr (Step.allowed_size hpos hne) hpos l k).bounded
  · exact hr

end Learner

end OnlineLearning
