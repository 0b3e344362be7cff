import OnlineLearning.Proofs.Binary.Difference
import OnlineLearning.Proofs.Learning.Rival
import OnlineLearning.Proofs.Model.Labels

/-!
# Who leads a scan

No contender scores above the leader of a scan, and a leader whose score is not-a-number led from the
start. From these two, a label with a margin above zero is the one that is predicted, as soon as it is
known (`predicts_of_margin_pos`); whether scores overflow or are undefined makes no difference.
-/

namespace OnlineLearning

namespace Contender
variable {cs : List Contender} {c first leader : Contender}

/-- No contender has a null label. -/
def Named (cs : List Contender) : Prop := ∀ c ∈ cs, c.label.datum.isNull = false

theorem lead_some (h : first.label.datum.isNull = false) (c : Contender) :
    lead (some first) c = some (if first.score.less c.score then c else first) := by
  unfold lead beats
  dsimp only
  rw [h, Bool.false_or]
  split <;> rfl

/-- The lead only ever goes to a greater score, so the last leader is at least as good as each before
it and as all that came up in the meantime. -/
theorem not_less_foldl_lead (hfirst : first.label.datum.isNull = false) (hcs : Named cs)
    (h : cs.foldl lead (some first) = some leader) :
    (∀ x, first.score.less x = false → leader.score.less x = false) ∧
      ∀ c ∈ cs, leader.score.less c.score = false := by
  induction cs generalizing first with
  | nil =>
    obtain rfl := Option.some.inj h
    exact ⟨fun x hx => hx, fun c hc => absurd hc List.not_mem_nil⟩
  | cons d cs ih =>
    obtain ⟨hd, hcs⟩ := List.forall_mem_cons.mp hcs
    rw [List.foldl_cons, lead_some hfirst] at h
    rw [List.forall_mem_cons]
    by_cases hless : first.score.less d.score = true
    · rw [if_pos hless] at h
      obtain ⟨hbefore, hafter⟩ := ih hd hcs h
      refine ⟨fun x hx => hbefore x ?_, hbefore d.score (Number.less_irrefl _), hafter⟩
      exact Number.not_less_of_less_of_not_less hless hx
    · rw [if_neg hless] at h
      obtain ⟨hbefore, hafter⟩ := ih hfirst hcs h
      exact ⟨hbefore, hbefore d.score (Bool.eq_false_iff.mpr hless), hafter⟩

theorem not_less_leader? (hcs : Named cs) (h : leader? cs = some leader) :
    ∀ c ∈ cs, leader.score.less c.score = false := by
  cases cs with
  | nil => cases h
  | cons first cs =>
    obtain ⟨hfirst, hcs⟩ := List.forall_mem_cons.mp hcs
    obtain ⟨hbefore, hafter⟩ := not_less_foldl_lead hfirst hcs h
    exact List.forall_mem_cons.mpr ⟨hbefore first.score (Number.less_irrefl _), hafter⟩

theorem foldl_lead_of_not_less (hfirst : first.label.datum.isNull = false)
    (h : ∀ c ∈ cs, first.score.less c.score = false) : cs.foldl lead (some first) = some first := by
  induction cs with
  | nil => rfl
  | cons d cs ih =>
    obtain ⟨hless, hcs⟩ := List.forall_mem_cons.mp h
    rw [List.foldl_cons, lead_some hfirst, if_neg (Bool.eq_false_iff.mp hless), ih hcs]

/-- A leader whose score is not-a-number led from the start. -/
theorem eq_first_of_nan (hfirst : first.label.datum.isNull = false) (hcs : Named cs)
    (h : cs.foldl lead (some first) = some leader) (hnan : leader.score = .nan) : leader = first := by
  induction cs generalizing first with
  | nil => exact (Option.some.inj h).symm
  | cons d cs ih =>
    obtain ⟨hd, hcs⟩ := List.forall_mem_cons.mp hcs
    rw [List.foldl_cons, lead_some hfirst] at h
    by_cases hless : first.score.less d.score = true
    · rw [if_pos hless] at h
      have hled := ih hd hcs h
      rw [hled] at hnan
      exact absurd hnan (Number.ne_nan_of_less hless).2
    · rw [if_neg hless] at h
      exact ih hfirst hcs h

/-- Who leads a scan with a score that is not-a-number leads every scan that leaves out others. -/
theorem leader?_filter_of_nan {p : Contender → Bool} (hcs : Named cs) (h : leader? cs = some leader)
    (hnan : leader.score = .nan) (hp : p leader = true) : leader? (cs.filter p) = some leader := by
  cases cs with
  | nil => cases h
  | cons first cs =>
    obtain ⟨hfirst, hcs⟩ := List.forall_mem_cons.mp hcs
    obtain rfl := eq_first_of_nan hfirst hcs h hnan
    rw [List.filter_cons_of_pos hp]
    refine foldl_lead_of_not_less hfirst fun c _ => Bool.eq_false_iff.mpr fun hless => ?_
    exact (Number.ne_nan_of_less hless).1 hnan

end Contender

namespace Registry
variable {r : Registry} {withVariance : Bool} {cs : List Coordinate} {label : Key}

/-- No known label is null. -/
def Named (r : Registry) : Prop := ∀ label ∈ r.labels, label.datum.isNull = false

/-- The labels with their scores, as a prediction looks at them. -/
def field (r : Registry) (cs : List Coordinate) : List Contender := r.labels.map (r.contender false cs)

theorem Named.field (h : r.Named) (cs : List Coordinate) : Contender.Named (r.field cs) := by
  intro c hc
  obtain ⟨l, hl, rfl⟩ := List.mem_map.mp hc
  exact h l hl

theorem others_eq_filter (r : Registry) (cs : List Coordinate) (label : Key) :
    r.others false cs label = (r.field cs).filter fun c => !c.label.datum.equals label.datum := by
  rw [others_eq, Registry.field, List.filter_map]
  rfl

theorem predict_eq_some_iff (h : r.Named) {p : Key} :
    r.predict cs = some p ↔ ∃ c, Contender.leader? (r.field cs) = some c ∧ c.label = p := by
  rw [predict_eq]
  show (Contender.leader? (r.field cs)).bind Contender.label? = some p ↔ _
  rw [Option.bind_eq_some_iff]
  refine exists_congr fun c => and_congr_right fun hc => ?_
  have hnull := h.field cs c (Contender.leader?_mem hc)
  rw [Contender.label?_eq_some_iff]
  constructor
  · rintro ⟨rfl, -⟩
    rfl
  · rintro rfl
    exact ⟨rfl, hnull⟩

/-- Once labels are known, the one that leads them is predicted. -/
theorem exists_predicted (hnamed : r.Named) (cs : List Coordinate) (h : r.labels ≠ []) :
    ∃ leader, Contender.leader? (r.field cs) = some leader ∧ r.predict cs = some leader.label := by
  have hfield : r.field cs ≠ [] := mt List.map_eq_nil_iff.mp h
  obtain ⟨leader, hleader⟩ := Contender.exists_leader? hfield
  exact ⟨leader, hleader, (predict_eq_some_iff hnamed).mpr ⟨leader, hleader, rfl⟩⟩

theorem score_of_mem_field {c : Contender} (h : c ∈ r.field cs) : c.score = (r.storeOf c.label).score cs := by
  obtain ⟨l, -, rfl⟩ := List.mem_map.mp h
  rfl

theorem exists_mem_field (cs : List Coordinate) (h : r.contains label = true) :
    ∃ c ∈ r.field cs, c.score = (r.storeOf label).score cs := by
  obtain ⟨l, hl, hsame⟩ := contains_iff.mp h
  refine ⟨r.contender false cs l, List.mem_map_of_mem hl, ?_⟩
  rw [← storeOf_congr r hsame]
  rfl

theorem size_ne_zero_of_contains (h : r.contains label = true) : r.size ≠ 0 := by
  obtain ⟨l, hl, -⟩ := contains_iff.mp h
  exact size_ne_zero_of_mem hl

/-- A label that is known and has a margin above zero is the one that is predicted. -/
theorem predicts_of_margin_pos (hnamed : r.Named) (hknown : r.contains label = true)
    (hpos : Number.less 0 (r.margin false cs label).value = true) :
    ∃ p, r.predict cs = some p ∧ p.datum.equals label.datum = true := by
  obtain ⟨own, hown, hscore⟩ := exists_mem_field cs hknown
  obtain ⟨leader, hleader, hpredict⟩ := exists_predicted hnamed cs
    fun hnil => size_ne_zero_of_contains hknown (size_eq_zero_iff.mpr hnil)
  refine ⟨leader.label, hpredict, ?_⟩
  -- otherwise the leader is among the others, and the one who leads them scores lower than the label
  refine Bool.of_not_eq_false fun hne => ?_
  have hother : leader ∈ r.others false cs label := by
    rw [others_eq_filter]
    exact List.mem_filter.mpr ⟨Contender.leader?_mem hleader, by rw [hne]; rfl⟩
  obtain ⟨rival, hrival⟩ := Contender.exists_leader? (List.ne_nil_of_mem hother)
  have hvalue : (r.margin false cs label).value = own.score - rival.score := by
    rw [hscore, margin_of_leader (size_ne_zero_of_contains hknown) hrival]
    rfl
  have hlow : rival.score.less own.score = true := by rwa [hvalue, Number.less_zero_sub] at hpos
  have hnamed' : Contender.Named (r.others false cs label) := by
    rw [others_eq_filter]
    exact fun c hc => hnamed.field cs c (List.mem_filter.mp hc).1
  have hnan : leader.score = .nan := Number.eq_nan_of_between hlow
    (Contender.not_less_leader? hnamed' hrival leader hother)
    (Contender.not_less_leader? (hnamed.field cs) hleader own hown)
  have hsame : Contender.leader? (r.others false cs label) = some leader := by
    rw [others_eq_filter]
    exact Contender.leader?_filter_of_nan (hnamed.field cs) hleader hnan (by rw [hne]; rfl)
  obtain rfl := Option.some.inj (hrival.symm.trans hsame)
  exact (Number.ne_nan_of_less hlow).1 hnan

end Registry

end OnlineLearning
