import OnlineLearning.Proofs.Binary.Monotone
import OnlineLearning.Proofs.Learning.Leader

/-!
# The scan for the best label

A prediction goes through all known labels, a margin through all but one, and the margin of a
confidence-weighted learner carries variances along. It is one scan all the same. Variances do not take part
in it (`leader?_map_plain`), and as long as all scores are defined it finds the first contender with the
greatest score (`firstBest_of_leader?`), who still leads when others are left out (`leader?_filter`).
-/

namespace OnlineLearning

namespace Contender
variable {cs : List Contender} {c d first leader : Contender}

/-! ### Variances -/

/-- A contender without its variance. -/
def plain (c : Contender) : Contender := { c with variance := 0 }

theorem foldl_lead_map_plain (cs : List Contender) (leader? : Option Contender) :
    (cs.map plain).foldl lead (leader?.map plain) = (cs.foldl lead leader?).map plain := by
  induction cs generalizing leader? with
  | nil => rfl
  | cons c cs ih =>
    rw [List.map_cons, List.foldl_cons, List.foldl_cons, ← ih]
    congr 1
    cases leader? with
    | none => rfl
    | some first =>
      show (if c.beats first then some c.plain else some first.plain) =
        (if c.beats first then some c else some first).map plain
      split <;> rfl

theorem leader?_map_plain (cs : List Contender) : leader? (cs.map plain) = (leader? cs).map plain :=
  foldl_lead_map_plain cs none

/-! ### The first best -/

/-- The scores of all contenders are defined. -/
def Defined (cs : List Contender) : Prop := ∀ c ∈ cs, c.score ≠ .nan

/-- The first contender with the greatest score. -/
def FirstBest (cs : List Contender) (c : Contender) : Prop :=
  ∃ before after, cs = before ++ c :: after ∧ (∀ d ∈ before, d.score.less c.score = true) ∧
    ∀ d ∈ after, c.score.less d.score = false

namespace FirstBest

theorem mem (h : FirstBest cs c) : c ∈ cs := by
  obtain ⟨before, after, rfl, -, -⟩ := h
  simp

theorem not_less (h : FirstBest cs c) : ∀ d ∈ cs, c.score.less d.score = false := by
  obtain ⟨before, after, rfl, hbefore, hafter⟩ := h
  intro d hd
  rcases List.mem_append.mp hd with hd | hd
  · exact Number.not_less_of_less_of_not_less (hbefore d hd) (Number.less_irrefl _)
  · rcases List.mem_cons.mp hd with rfl | hd
    · exact Number.less_irrefl _
    · exact hafter d hd

theorem cons (hless : first.score.less c.score = true) (h : FirstBest cs c) : FirstBest (first :: cs) c := by
  obtain ⟨before, after, rfl, hbefore, hafter⟩ := h
  exact ⟨first :: before, after, rfl, List.forall_mem_cons.mpr ⟨hless, hbefore⟩, hafter⟩

/-- One who does not beat the first of a scan can come right after. -/
theorem insert (hd : d.score ≠ .nan) (hless : first.score.less d.score = false) (h : FirstBest (first :: cs) c) :
    FirstBest (first :: d :: cs) c := by
  obtain ⟨before, after, heq, hbefore, hafter⟩ := h
  cases before with
  | nil =>
    obtain ⟨rfl, rfl⟩ := List.cons.inj heq
    exact ⟨[], d :: cs, rfl, nofun, List.forall_mem_cons.mpr ⟨hless, hafter⟩⟩
  | cons e before =>
    obtain ⟨rfl, rfl⟩ := List.cons.inj heq
    obtain ⟨hfirst, hbefore⟩ := List.forall_mem_cons.mp hbefore
    have hle : d.score.atMost first.score = true := by
      rw [Number.atMost_eq_not_less hd (Number.ne_nan_of_less hfirst).1, hless]
      rfl
    exact ⟨first :: d :: before, after, rfl,
      List.forall_mem_cons.mpr ⟨hfirst, List.forall_mem_cons.mpr ⟨Number.less_of_atMost_of_less hle hfirst, hbefore⟩⟩,
      hafter⟩

theorem filter {p : Contender → Bool} (h : FirstBest cs c) (hp : p c = true) : FirstBest (cs.filter p) c := by
  obtain ⟨before, after, rfl, hbefore, hafter⟩ := h
  refine ⟨before.filter p, after.filter p, ?_, fun d hd => hbefore d (List.mem_filter.mp hd).1,
    fun d hd => hafter d (List.mem_filter.mp hd).1⟩
  rw [List.filter_append, List.filter_cons_of_pos hp]

end FirstBest

theorem firstBest_foldl_lead (hcs : Named (first :: cs)) (hdefined : Defined (first :: cs))
    (h : cs.foldl lead (some first) = some leader) : FirstBest (first :: cs) leader := by
  induction cs generalizing first with
  | nil =>
    obtain rfl := Option.some.inj h
    exact ⟨[], [], rfl, nofun, nofun⟩
  | cons d cs ih =>
    obtain ⟨hfirst, hrest⟩ := List.forall_mem_cons.mp hcs
    obtain ⟨hfirst', hrest'⟩ := List.forall_mem_cons.mp hdefined
    rw [List.foldl_cons, lead_some hfirst] at h
    by_cases hless : first.score.less d.score = true
    · rw [if_pos hless] at h
      have hbest := ih hrest hrest' h
      have hle : d.score.atMost leader.score = true := by
        rw [Number.atMost_eq_not_less (hrest' d (List.mem_cons_self ..)) (hrest' leader hbest.mem),
          hbest.not_less d (List.mem_cons_self ..)]
        rfl
      exact hbest.cons (Number.less_of_less_of_atMost hless hle)
    · rw [if_neg hless] at h
      have hbest : FirstBest (first :: cs) leader :=
        ih (List.forall_mem_cons.mpr ⟨hfirst, (List.forall_mem_cons.mp hrest).2⟩)
          (List.forall_mem_cons.mpr ⟨hfirst', (List.forall_mem_cons.mp hrest').2⟩) h
      exact hbest.insert (hrest' d (List.mem_cons_self ..)) (Bool.eq_false_iff.mpr hless)

theorem firstBest_of_leader? (hcs : Named cs) (hdefined : Defined cs) (h : leader? cs = some leader) :
    FirstBest cs leader := by
  cases cs with
  | nil => cases h
  | cons first cs => exact firstBest_foldl_lead hcs hdefined h

theorem FirstBest.leader?_eq (hcs : Named cs) (h : FirstBest cs c) : leader? cs = some c := by
  have hc := hcs c h.mem
  obtain ⟨before, after, rfl, hbefore, hafter⟩ := h
  have hlead : lead (before.foldl lead none) c = some c := by
    cases hled : before.foldl lead none with
    | none => rfl
    | some d =>
      have hd : d ∈ before := (mem_of_foldl_lead hled).resolve_right nofun
      rw [lead_some (hcs d (List.mem_append_left _ hd)), if_pos (hbefore d hd)]
  unfold leader?
  rw [List.foldl_append, List.foldl_cons, hlead, foldl_lead_of_not_less hc hafter]

/-- Who leads a scan leads every scan that leaves out others. -/
theorem leader?_filter {p : Contender → Bool} (hcs : Named cs) (hdefined : Defined cs)
    (h : leader? cs = some leader) (hp : p leader = true) : leader? (cs.filter p) = some leader := by
  have hbest := (firstBest_of_leader? hcs hdefined h).filter hp
  exact hbest.leader?_eq fun c hc => hcs c (List.mem_filter.mp hc).1

end Contender

namespace Registry
variable {r : Registry} {cs : List Coordinate} {label : Key}

theorem plain_contender (r : Registry) (withVariance : Bool) (cs : List Coordinate) (label : Key) :
    (r.contender withVariance cs label).plain = r.contender false cs label := by
  unfold contender Contender.plain
  rw [measure_fst, measure_fst]
  rfl

theorem others_map_plain (r : Registry) (withVariance : Bool) (cs : List Coordinate) (label : Key) :
    (r.others withVariance cs label).map Contender.plain = r.others false cs label := by
  rw [others_eq, others_eq, List.map_map]
  exact List.map_congr_left fun l _ => plain_contender r withVariance cs l

/-- The variance has no part in the value of a margin and in the choice of the rival. -/
theorem margin_eq_plain (r : Registry) (withVariance : Bool) (cs : List Coordinate) (label : Key) :
    (r.margin withVariance cs label).value = (r.margin false cs label).value ∧
      (r.margin withVariance cs label).rival = (r.margin false cs label).rival := by
  have hown : (r.contender withVariance cs label).score = (r.contender false cs label).score := by
    rw [← plain_contender r withVariance]
    rfl
  have hleader := Contender.leader?_map_plain (r.others withVariance cs label)
  rw [others_map_plain] at hleader
  by_cases hsize : r.size = 0
  · rw [margin_of_size_eq_zero hsize, margin_of_size_eq_zero hsize, hown]
    exact ⟨rfl, rfl⟩
  · cases hothers : Contender.leader? (r.others withVariance cs label) with
    | none =>
      rw [hothers] at hleader
      rw [margin_of_alone hsize hothers, margin_of_alone hsize hleader, hown]
      exact ⟨rfl, rfl⟩
    | some other =>
      rw [hothers] at hleader
      rw [margin_of_leader hsize hothers, margin_of_leader hsize hleader, hown]
      exact ⟨rfl, rfl⟩

end Registry

end OnlineLearning
