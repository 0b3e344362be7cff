import OnlineLearning.Proofs.Binary.Products
import OnlineLearning.Proofs.Learning.ConfidentStep
import OnlineLearning.Proofs.Learning.Stages
import OnlineLearning.Proofs.Learning.Writes
import OnlineLearning.Proofs.Model.Alike

/-!
# Which way an update moves scores

Both learners add something to the mean of a weight that lies on the side of zero where the value lies, or
subtract it. The product of mean and value moves with it, whatever is rounded or overflows, and so does the sum
of the products (`score_atMost_score`): the label does not lose and its rival does not gain, as long as no score is
undefined. A label that is its own rival is moved both ways; that is so for not-a-number alone (`scores_move`).
-/

namespace OnlineLearning

namespace Number
variable {F : Format} {x y z m d : Number F}

/-- Two numbers that no zero keeps apart. -/
def SameSide (x d : Number F) : Prop :=
  (Number.atMost 0 x = true ∧ Number.atMost 0 d = true) ∨ (x.atMost 0 = true ∧ d.atMost 0 = true)

namespace SameSide

theorem refl [F.HasZero] (h : x ≠ nan) : SameSide x x := by
  have hzero : (0 : Number F) ≠ nan := by rw [zero_eq_finite]; nofun
  rcases atMost_total hzero h with h | h
  · exact .inl ⟨h, h⟩
  · exact .inr ⟨h, h⟩

theorem mul_left [F.HasZero] (hz : Number.atMost 0 z = true) (hne : z * x ≠ nan) (h : x ≠ nan) :
    SameSide x (z * x) := by
  rcases refl h with ⟨hx, -⟩ | ⟨hx, -⟩
  · exact .inl ⟨hx, atMost_zero_mul hz hx hne⟩
  · exact .inr ⟨hx, mul_atMost_zero hz hx hne⟩

theorem mul_atMost_add_mul [F.HasZero] (h : SameSide x d) (hm : m * x ≠ nan) (hm' : (m + d) * x ≠ nan) :
    (m * x).atMost ((m + d) * x) = true := by
  have hsum : m + d ≠ nan := fun hnan => hm' (by rw [hnan, nan_mul])
  rcases h with ⟨hx, hd⟩ | ⟨hx, hd⟩
  · exact atMost_mul_right hx (atMost_add_self hd hsum) hm hm'
  · exact mul_right_atMost hx (add_atMost_self hd hsum) hm' hm

theorem sub_mul_atMost_mul [F.HasZero] (h : SameSide x d) (hm : m * x ≠ nan) (hm' : (m - d) * x ≠ nan) :
    ((m - d) * x).atMost (m * x) = true := by
  have hdifference : m - d ≠ nan := fun hnan => hm' (by rw [hnan, nan_mul])
  rcases h with ⟨hx, hd⟩ | ⟨hx, hd⟩
  · exact atMost_mul_right hx (sub_self_atMost hd hdifference) hm' hm
  · exact mul_right_atMost hx (atMost_sub_self hd hdifference) hm hm'

end SameSide

end Number

namespace Store

/-- A score is not below another one if no product is, and both are defined. -/
theorem score_atMost_score {s t : Store} {cs : List Coordinate}
    (h : ∀ c ∈ cs, (s.get c.key).mean.narrow * c.value.narrow ≠ .nan →
      (t.get c.key).mean.narrow * c.value.narrow ≠ .nan →
      ((s.get c.key).mean.narrow * c.value.narrow).atMost ((t.get c.key).mean.narrow * c.value.narrow) = true)
    (hs : s.score cs ≠ .nan) (ht : t.score cs ≠ .nan) : (s.score cs).atMost (t.score cs) = true := by
  refine List.foldl_rel (r := fun a b : Single => a ≠ .nan → b ≠ .nan → a.atMost b = true) ?_ ?_ hs ht
  · exact fun h _ => Number.atMost_refl h
  · intro c hc a b hab ha hb
    have hab := hab (fun hnan => ha (by rw [hnan, Number.nan_add])) fun hnan => hb (by rw [hnan, Number.nan_add])
    have hterm := h c hc (fun hnan => ha (by rw [hnan, Number.add_nan])) fun hnan => hb (by rw [hnan, Number.add_nan])
    exact Number.add_atMost_add hab hterm ha hb

end Store

/-! ### Weights -/

/-- The mean of a weight is moved by something on the side of the value: it is added toward the example and
subtracted away from it. -/
def Weight.MovesWith (f : Bool → Single → Weight → Weight) (w : Weight) : Prop :=
  ∀ x, ∃ d, (x ≠ .nan → d ≠ .nan → Number.SameSide x d) ∧
    (f true x w).mean.narrow = w.mean.narrow + d ∧ (f false x w).mean.narrow = w.mean.narrow - d

namespace Weight.MovesWith
variable {f : Bool → Single → Weight → Weight} {w : Weight} {x : Single}

theorem mul_atMost_toward (h : w.MovesWith f) (hw : w.mean.narrow * x ≠ .nan)
    (hw' : (f true x w).mean.narrow * x ≠ .nan) :
    (w.mean.narrow * x).atMost ((f true x w).mean.narrow * x) = true := by
  obtain ⟨d, hside, htoward, -⟩ := h x
  rw [htoward] at hw' ⊢
  have hx : x ≠ .nan := fun hnan => hw (by rw [hnan, Number.mul_nan])
  have hd : d ≠ .nan := fun hnan => hw' (by rw [hnan, Number.add_nan, Number.nan_mul])
  exact (hside hx hd).mul_atMost_add_mul hw hw'

theorem away_mul_atMost (h : w.MovesWith f) (hw : w.mean.narrow * x ≠ .nan)
    (hw' : (f false x w).mean.narrow * x ≠ .nan) :
    ((f false x w).mean.narrow * x).atMost (w.mean.narrow * x) = true := by
  obtain ⟨d, hside, -, haway⟩ := h x
  rw [haway] at hw' ⊢
  have hx : x ≠ .nan := fun hnan => hw (by rw [hnan, Number.mul_nan])
  have hd : d ≠ .nan := by
    rintro rfl
    refine hw' ?_
    show (w.mean.narrow + .nan) * x = .nan
    rw [Number.add_nan, Number.nan_mul]
  exact (hside hx hd).sub_mul_atMost_mul hw hw'

end Weight.MovesWith

theorem Weight.movesWith_shift (w : Weight) : w.MovesWith Learner.shift :=
  fun x => ⟨x, fun hx _ => .refl hx, Number.narrow_widen _, Number.narrow_widen _⟩

theorem Weight.movesWith_apply {w : Weight} {step : Single} (hstep : Number.less 0 step = true)
    (hcovariance : Number.less 0 w.covariance = true) (phi : Single) :
    w.MovesWith fun toward x w => (Step.apply toward x step phi w).1 := by
  have hmean : ∀ toward x, (Step.apply toward x step phi w).1.mean.narrow =
      if toward then w.mean.narrow + step * w.covariance.narrow * x
      else w.mean.narrow - step * w.covariance.narrow * x := by
    intro toward x
    unfold Step.apply
    dsimp only
    split <;> exact Number.narrow_widen _
  refine fun x => ⟨step * w.covariance.narrow * x, fun hx hd => ?_, hmean true x, hmean false x⟩
  have hfactor : step * w.covariance.narrow ≠ .nan := fun hnan => hd (by rw [hnan, Number.nan_mul])
  have hsign : (step * w.covariance.narrow).HasSign false :=
    (Number.hasSign_of_less_zero hstep).mul (Number.hasSign_of_less_zero hcovariance).convert
  exact .mul_left (Number.atMost_zero_of_hasSign hsign hfactor) hd hx

/-! ### Updates -/

theorem Coordinate.valuesAt_of_mem {cs : List Coordinate} {c : Coordinate}
    (h : cs.Pairwise fun c d => c.key.same d.key = false) (hc : c ∈ cs) : valuesAt cs c.key = [c.value] := by
  have hfilter : (cs.filter fun d => d.key.same c.key) = [c] := by
    induction cs with
    | nil => cases hc
    | cons d cs ih =>
      obtain ⟨hd, hcs⟩ := List.pairwise_cons.mp h
      rcases List.mem_cons.mp hc with rfl | hc
      · rw [List.filter_cons, if_pos (Key.same_self _), List.filter_eq_nil_iff.mpr]
        intro e he
        rw [Key.same_comm, hd e he]
        nofun
      · rw [List.filter_cons_of_neg (by rw [hd c hc]; nofun), ih hcs hc]
  rw [valuesAt, hfilter]
  rfl

namespace Learner
variable {learner : Learner} {r : Registry} {cs : List Coordinate} {label rival l : Key}

/-- What an update does to a weight at a value. -/
def rewrite (r : Registry) (cs : List Coordinate) (label : Key) : Learner → Bool → Single → Weight → Weight
  | perceptron => shift
  | confidenceWeighted phi => fun toward x w => (Step.apply toward x (stepSize r phi cs label) phi.narrow w).1

section
variable (h : (learner.learn r cs label).1 = true)
include h

theorem weight_learn (hrival : ∀ l, (r.margin learner.usesVariance cs label).rival = some l → label.same l = false)
    (l k : Key) :
    (learner.learn r cs label).2.1.weight l k =
      match Registry.direction? label (r.margin learner.usesVariance cs label).rival l with
      | none => r.weight l k
      | some toward =>
        (Coordinate.valuesAt cs k).foldl (fun w x => learner.rewrite r cs label toward x.narrow w) (r.weight l k) := by
  cases learner with
  | perceptron =>
    simp only [learn] at h ⊢
    split at h
    · cases h
    · rename_i hpos
      rw [if_neg hpos]
      exact Registry.weight_shiftAll r hrival cs l k
  | confidenceWeighted phi =>
    simp only [learn] at h ⊢
    split at h
    · rename_i hpos
      rw [if_pos hpos]
      exact Registry.weight_step r hrival cs l k
    · cases h

theorem movesWith_rewrite (hcovariance : r.Everywhere fun w => Number.less 0 w.covariance = true) (l k : Key) :
    (r.weight l k).MovesWith (learner.rewrite r cs label) := by
  cases learner with
  | perceptron => exact Weight.movesWith_shift _
  | confidenceWeighted phi =>
    have hpos : Number.less 0 (stepSize r phi cs label) = true := by
      simp only [learn] at h
      split at h
      · assumption
      · cases h
    exact Weight.movesWith_apply hpos (hcovariance l k) _

/-! ### Scores -/

variable (hrival : ∀ l, (r.margin learner.usesVariance cs label).rival = some l → label.same l = false)
include hrival

theorem score_learn_other (hl : label.same l = false)
    (hother : ∀ k, (r.margin learner.usesVariance cs label).rival = some k → k.same l = false)
    (ds : List Coordinate) : ((learner.learn r cs label).2.1.storeOf l).score ds = (r.storeOf l).score ds := by
  refine Store.score_congr (fun k => ?_) ds
  have hweight := weight_learn h hrival l k
  rw [Registry.direction?_other hl hother] at hweight
  exact hweight

variable (hcovariance : r.Everywhere fun w => Number.less 0 w.covariance = true)
  (hdistinct : cs.Pairwise fun c d => c.key.same d.key = false)
include hcovariance hdistinct

omit hcovariance in
/-- At a key that comes once, the label and its rival are moved once, in opposite directions. -/
theorem get_storeOf_learn {toward : Bool} {c : Coordinate} (hc : c ∈ cs)
    (hl : Registry.direction? label (r.margin learner.usesVariance cs label).rival l = some toward) :
    ((learner.learn r cs label).2.1.storeOf l).get c.key =
      learner.rewrite r cs label toward c.value.narrow (r.weight l c.key) := by
  have hweight := weight_learn h hrival l c.key
  rw [hl, Coordinate.valuesAt_of_mem hdistinct hc] at hweight
  exact hweight

theorem score_atMost_score_learn (hbefore : (r.storeOf label).score cs ≠ .nan)
    (hafter : ((learner.learn r cs label).2.1.storeOf label).score cs ≠ .nan) :
    ((r.storeOf label).score cs).atMost (((learner.learn r cs label).2.1.storeOf label).score cs) = true := by
  refine Store.score_atMost_score (fun c hc hp hq => ?_) hbefore hafter
  rw [get_storeOf_learn h hrival hdistinct hc Registry.direction?_label] at hq ⊢
  exact (movesWith_rewrite h hcovariance label c.key).mul_atMost_toward hp hq

theorem score_learn_atMost_score (hl : (r.margin learner.usesVariance cs label).rival = some l)
    (hbefore : (r.storeOf l).score cs ≠ .nan) (hafter : ((learner.learn r cs label).2.1.storeOf l).score cs ≠ .nan) :
    (((learner.learn r cs label).2.1.storeOf l).score cs).atMost ((r.storeOf l).score cs) = true := by
  refine Store.score_atMost_score (fun c hc hq hp => ?_) hafter hbefore
  rw [get_storeOf_learn h hrival hdistinct hc (Registry.direction?_rival hrival hl)] at hq ⊢
  exact (movesWith_rewrite h hcovariance l c.key).away_mul_atMost hp hq

end

/-- A label that is its own rival is not-a-number, and known. -/
theorem nan_of_own_rival {withVariance : Bool} (h : (r.margin withVariance cs label).rival = some rival)
    (hsame : label.same rival = true) : label.datum.isNaN = true ∧ r.contains label = true := by
  obtain ⟨hmem, -, -⟩ := Registry.exists_of_rival h
  refine ⟨Bool.of_not_eq_false fun hnan => ?_, Registry.contains_iff.mpr ⟨rival, hmem, by rwa [Key.same_comm]⟩⟩
  have hother := Registry.rival_same_eq_false hnan h
  rw [Key.same_comm, hsame] at hother
  cases hother

/-- A call that changes the model on an example without repeated keys: unless the label is its own rival, which
only a known not-a-number can be, the label does not lose, its rival does not gain, and no other score changes. -/
theorem scores_move (learner : Learner) {tokens label : Datum} {key : Key}
    (hread : readExample tokens label = .ok (key, cs))
    (hcovariance : r.Everywhere fun w => Number.less 0 w.covariance = true)
    (hdistinct : cs.Pairwise fun c d => c.key.same d.key = false)
    (hchanged : (learner.train r tokens label).result = .ok true) :
    let rival? := (r.margin learner.usesVariance cs key).rival
    let after := (learner.train r tokens label).registry
    (∀ rival, rival? = some rival → key.same rival = true → label.isNaN = true ∧ r.contains key = true) ∧
      ((∀ rival, rival? = some rival → key.same rival = false) →
        ((r.storeOf key).score cs ≠ .nan → (after.storeOf key).score cs ≠ .nan →
          ((r.storeOf key).score cs).atMost ((after.storeOf key).score cs) = true) ∧
        (∀ rival, rival? = some rival →
          (r.storeOf rival).score cs ≠ .nan → (after.storeOf rival).score cs ≠ .nan →
          ((after.storeOf rival).score cs).atMost ((r.storeOf rival).score cs) = true) ∧
        ∀ l, key.same l = false → (∀ rival, rival? = some rival → rival.same l = false) →
          ∀ ds, (after.storeOf l).score ds = (r.storeOf l).score ds) := by
  intro rival? after
  have hafter : after = (learner.learn r cs key).2.1 := learner.registry_train hread r
  have hlearn : (learner.learn r cs key).1 = true :=
    Except.ok.inj ((learner.result_train hread r).symm.trans hchanged)
  obtain ⟨-, hkey, -⟩ := exists_of_readExample hread
  obtain rfl := Datum.toKey_eq_ok_iff.mp hkey
  refine ⟨fun rival hl hsame => nan_of_own_rival hl hsame, fun hrival => ?_⟩
  rw [hafter]
  exact ⟨score_atMost_score_learn hlearn hrival hcovariance hdistinct,
    fun rival hl => score_learn_atMost_score hlearn hrival hcovariance hdistinct hl,
    fun l hl hother => score_learn_other hlearn hrival hl hother⟩

/-- Tokens with two keys. -/
def twoTokens : Datum := .list [.tuple [.text "f", .float 2 0], .text "g"]

/-- The coordinates of these tokens. -/
def twoCoordinates : List Coordinate := [⟨Key.ofText "f", 2⟩, ⟨Key.ofText "g", 1⟩]

theorem scores_move_rivalSample :
    let after := ((confidenceWeighted 1).train rivalSample twoTokens (.text "a")).registry
    ((rivalSample.storeOf (Key.ofText "a")).score twoCoordinates).atMost
        ((after.storeOf (Key.ofText "a")).score twoCoordinates) = true ∧
      ((after.storeOf (Key.ofText "b")).score twoCoordinates).atMost
        ((rivalSample.storeOf (Key.ofText "b")).score twoCoordinates) = true := by
  have hread : readExample twoTokens (.text "a") = .ok (Key.ofText "a", twoCoordinates) := rfl
  have hcovariance : rivalSample.Everywhere fun w => Number.less 0 w.covariance = true :=
    (Registry.Everywhere.empty (by decide +kernel)).set _ _ (by decide +kernel)
  have hdistinct : twoCoordinates.Pairwise fun c d => c.key.same d.key = false := by decide
  have hlearn : ((confidenceWeighted 1).learn rivalSample twoCoordinates (Key.ofText "a")).1 = true := by decide +kernel
  have hchanged := (result_train (confidenceWeighted 1) hread rivalSample).trans (congrArg Except.ok hlearn)
  obtain ⟨-, hmoved⟩ := scores_move (confidenceWeighted 1) hread hcovariance hdistinct hchanged
  obtain ⟨hlabel, hrival, -⟩ := hmoved fun rival hrival => by
    rw [Key.same_comm]
    exact Registry.rival_same_eq_false rfl hrival
  exact ⟨hlabel (by decide +kernel) (by decide +kernel), hrival _ rfl (by decide +kernel) (by decide +kernel)⟩

/-- A model that has learned a label that is not-a-number. -/
def nanSample : Registry := Registry.empty.set ⟨.float .nan 0, rfl⟩ (Key.ofText "a") ⟨1, 1⟩

/-- Not-a-number equals no known label, so here it is its own rival and gets its update taken away again; what is
lost of the sum on the way is lost of its score. -/
theorem own_rival_loses_nanSample :
    (nanSample.Everywhere fun w => Number.less 0 w.covariance = true) ∧
      (perceptron.train nanSample (.list [.tuple [.text "a", .float 1000000000 0]]) (.float .nan 0)).result = .ok true ∧
      ((nanSample.storeOf ⟨.float .nan 0, rfl⟩).score [⟨Key.ofText "a", 1000000000⟩]).isFinite = true ∧
      (((perceptron.train nanSample (.list [.tuple [.text "a", .float 1000000000 0]])
        (.float .nan 0)).registry.storeOf ⟨.float .nan 0, rfl⟩).score [⟨Key.ofText "a", 1000000000⟩]).less
        ((nanSample.storeOf ⟨.float .nan 0, rfl⟩).score [⟨Key.ofText "a", 1000000000⟩]) = true := by
  have hread : readExample (.list [.tuple [.text "a", .float 1000000000 0]]) (.float .nan 0) =
      .ok (⟨.float .nan 0, rfl⟩, [⟨Key.ofText "a", 1000000000⟩]) := rfl
  have hlearn : (perceptron.learn nanSample [⟨Key.ofText "a", 1000000000⟩] ⟨.float .nan 0, rfl⟩).1 = true := by
    decide +kernel
  refine ⟨(Registry.Everywhere.empty (by decide +kernel)).set _ _ (by decide +kernel),
    (result_train perceptron hread nanSample).trans (congrArg Except.ok hlearn), by decide +kernel, by decide +kernel⟩

end Learner

end OnlineLearning
