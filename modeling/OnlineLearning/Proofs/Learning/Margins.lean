import OnlineLearning.Proofs.Learning.Mistakes
import OnlineLearning.Proofs.Learning.Scan
import OnlineLearning.Proofs.Learning.Training

/-!
# What a margin is made of

A margin sets the score of a label against that of the first best among all known labels that differ from it,
and with variances it adds up those of the same two (`margin_against_best_other`). Labels are compared as values
here, so not-a-number differs from every label. Without variances a margin is the same but for its variance,
which is zero (`marginOf_without_variance`).
-/

namespace OnlineLearning

/-- An element of a list that is filtered and mapped comes from one of the list, and what stands before it
from elements that stand before that one. -/
theorem exists_split_of_map_filter {α β : Type} {p : α → Bool} {f : α → β} {xs : List α} {before after : List β}
    {b : β} (h : (xs.filter p).map f = before ++ b :: after) :
    ∃ front x back, xs = front ++ x :: back ∧ f x = b ∧ ∀ y ∈ front, p y = true → f y ∈ before := by
  obtain ⟨front, rest, hfilter, rfl, hrest⟩ := List.map_eq_append_iff.mp h
  obtain ⟨x, back, rfl, rfl, -⟩ := List.map_eq_cons_iff.mp hrest
  obtain ⟨front', rest', rfl, rfl, hrest'⟩ := List.filter_eq_append_iff.mp hfilter
  obtain ⟨between, back', rfl, hbetween, -, -⟩ := List.filter_eq_cons_iff.mp hrest'
  -- the filter has dropped all of `between`
  refine ⟨front' ++ between, x, back', (List.append_assoc ..).symm, rfl, fun y hy hp => ?_⟩
  rcases List.mem_append.mp hy with hy | hy
  · exact List.mem_map_of_mem (List.mem_filter.mpr ⟨hy, hp⟩)
  · exact absurd hp (hbetween y hy)

namespace Registry
variable {r : Registry} {withVariance : Bool} {fs : List Feature} {cs : List Coordinate} {label : Datum}
  {key rival : Key} {c : Contender}

/-! ### The best other label -/

/-- The first among the known labels that differ from a label and score highest on an example. -/
structure BestOther (r : Registry) (cs : List Coordinate) (label : Datum) (rival : Key) : Prop where
  known : rival ∈ r.labels
  differs : rival.datum.equals label = false
  greatest : ∀ l ∈ r.labels, l.datum.equals label = false →
    ((r.storeOf l).score cs).atMost ((r.storeOf rival).score cs) = true
  first : ∃ before after, r.labels = before ++ rival :: after ∧ ∀ l ∈ before, l.datum.equals label = false →
    ((r.storeOf l).score cs).less ((r.storeOf rival).score cs) = true

theorem others_eq_nil_iff (r : Registry) (withVariance : Bool) (cs : List Coordinate) (key : Key) :
    r.others withVariance cs key = [] ↔ ∀ l ∈ r.labels, l.datum.equals key.datum = true := by
  rw [others_eq, List.map_eq_nil_iff, List.filter_eq_nil_iff]
  simp

/-- The first best contender among the others is the best other label. -/
theorem bestOther_of_firstBest (hdefined : Contender.Defined (r.others withVariance cs key))
    (h : Contender.FirstBest (r.others withVariance cs key) (r.contender withVariance cs rival)) :
    r.BestOther cs key.datum rival := by
  have hmem : ∀ l ∈ r.labels, l.datum.equals key.datum = false →
      r.contender withVariance cs l ∈ r.others withVariance cs key :=
    fun l hl hne => mem_others_iff.mpr ⟨l, hl, hne, rfl⟩
  obtain ⟨l, hknown, hdiffers, hl⟩ := mem_others_iff.mp h.mem
  obtain rfl : l = rival := congrArg Contender.label hl
  refine ⟨hknown, hdiffers, fun l' hl' hne => ?_, ?_⟩
  · -- for defined scores, not to be below the other is to be at most as high
    rw [← contender_score r withVariance cs l, ← contender_score r withVariance cs l',
      Number.atMost_eq_not_less (hdefined _ (hmem l' hl' hne)) (hdefined _ h.mem), h.not_less _ (hmem l' hl' hne)]
    rfl
  · obtain ⟨before, after, hsplit, hbefore, -⟩ := h
    rw [others_eq] at hsplit
    obtain ⟨front, l', back, hlabels, hl', hfront⟩ := exists_split_of_map_filter hsplit
    obtain rfl : l' = l := congrArg Contender.label hl'
    refine ⟨front, back, hlabels, fun k hk hne => ?_⟩
    have hless := hbefore _ (hfront k hk (by rw [hne]; rfl))
    rwa [contender_score, contender_score] at hless

/-! ### Value and variance -/

/-- Nothing is taken off the score of a label without a store when there is no rival. -/
theorem score_unseen_sub_zero (cs : List Coordinate) : ({} : Store).score cs - 0 = ({} : Store).score cs := by
  rw [Store.score_unseen]
  split
  · decide
  · rfl

theorem named_others (h : r.Named) : Contender.Named (r.others withVariance cs key) := by
  intro c hc
  obtain ⟨l, hl, -, rfl⟩ := mem_others_iff.mp hc
  exact h l hl

theorem defined_others (h : ∀ l ∈ r.labels, (r.storeOf l).score cs ≠ .nan) :
    Contender.Defined (r.others withVariance cs key) := by
  intro c hc
  obtain ⟨l, hl, -, rfl⟩ := mem_others_iff.mp hc
  rw [contender_score]
  exact h l hl

theorem storeOf_of_size_eq_zero (h : r.size = 0) (label : Key) : r.storeOf label = {} :=
  storeOf_of_not_contains (Bool.eq_false_iff.mpr fun hknown => size_ne_zero_of_contains hknown h)

theorem label?_contender (h : r.Named) (hknown : rival ∈ r.labels) :
    (r.contender withVariance cs rival).label? = some rival :=
  Contender.label?_eq_some_iff.mpr ⟨rfl, h rival hknown⟩

theorem rival_eq_none_iff (hnamed : r.Named) : (r.margin withVariance cs key).rival = none ↔
    ∀ l ∈ r.labels, l.datum.equals key.datum = true := by
  rcases r.margin_cases withVariance cs key with
    ⟨hsize, hmargin⟩ | ⟨-, hothers, hmargin⟩ | ⟨rival, hknown, hne, -, hmargin⟩ <;> rw [hmargin]
  · rw [size_eq_zero_iff.mp hsize]
    exact iff_of_true rfl nofun
  · exact iff_of_true rfl ((r.others_eq_nil_iff withVariance cs key).mp hothers)
  · rw [label?_contender hnamed hknown]
    exact iff_of_false nofun fun h => Bool.eq_false_iff.mp hne (h rival hknown)

theorem bestOther_of_rival (hnamed : r.Named) (hdefined : ∀ l ∈ r.labels, (r.storeOf l).score cs ≠ .nan)
    (h : (r.margin withVariance cs key).rival = some rival) : r.BestOther cs key.datum rival := by
  rcases r.margin_cases withVariance cs key with
    ⟨-, hmargin⟩ | ⟨-, -, hmargin⟩ | ⟨best, -, -, hleader, hmargin⟩ <;> rw [hmargin] at h
  · cases h
  · cases h
  · obtain ⟨rfl, -⟩ := Contender.label?_eq_some_iff.mp h
    exact bestOther_of_firstBest (defined_others hdefined)
      (Contender.firstBest_of_leader? (named_others hnamed) (defined_others hdefined) hleader)

theorem value_margin (hnamed : r.Named) : (r.margin withVariance cs key).value =
    (r.storeOf key).score cs - (r.margin withVariance cs key).rival.elim 0 fun l => (r.storeOf l).score cs := by
  rcases r.margin_cases withVariance cs key with
    ⟨hsize, hmargin⟩ | ⟨-, -, hmargin⟩ | ⟨rival, hknown, -, -, hmargin⟩ <;> rw [hmargin, contender_score]
  · -- here alone nothing is subtracted
    rw [storeOf_of_size_eq_zero hsize]
    exact (score_unseen_sub_zero cs).symm
  · rfl
  · rw [contender_score, label?_contender hnamed hknown]
    rfl

theorem variance_margin (hnamed : r.Named) : (r.margin true cs key).variance =
    if r.size = 0 then 2 * ({} : Store).variance cs
    else (r.storeOf key).variance cs + (r.margin true cs key).rival.elim 0 fun l => (r.storeOf l).variance cs := by
  rcases r.margin_cases true cs key with
    ⟨hsize, hmargin⟩ | ⟨hsize, -, hmargin⟩ | ⟨rival, hknown, -, -, hmargin⟩ <;> rw [hmargin, contender_variance]
  · rw [if_pos hsize, storeOf_of_size_eq_zero hsize]
  · rw [if_neg hsize]
    rfl
  · rw [if_neg (size_ne_zero_of_mem hknown), contender_variance, label?_contender hnamed hknown]
    rfl

/-- With all scores defined, the rival of a label is the best of the known labels that differ from it, and there
is none only if no known label differs. The value is the score of the label less that of its rival, and the
variance the sum of theirs; what is missing counts as zero, but for the variances of a model without labels. -/
theorem margin_against_best_other (withVariance : Bool) (hcs : Feature.toCoordinates fs = .ok cs)
    (hkey : label.toKey = .ok key) (hnamed : r.Named) (hdefined : ∀ l ∈ r.labels, (r.storeOf l).score cs ≠ .nan) :
    ∃ margin, r.marginOf withVariance fs label = .ok margin ∧
      (margin.rival = none ↔ ∀ l ∈ r.labels, l.datum.equals label = true) ∧
      (∀ rival, margin.rival = some rival →
        r.BestOther cs label rival ∧ (label.isNaN = false → rival.same key = false)) ∧
      margin.value = (r.storeOf key).score cs - margin.rival.elim 0 (fun l => (r.storeOf l).score cs) ∧
      (withVariance = true → margin.variance =
        if r.size = 0 then 2 * ({} : Store).variance cs
        else (r.storeOf key).variance cs + margin.rival.elim 0 fun l => (r.storeOf l).variance cs) := by
  obtain rfl := Datum.toKey_eq_ok_iff.mp hkey
  refine ⟨r.margin withVariance cs key, marginOf_eq_ok hkey hcs, rival_eq_none_iff hnamed, fun rival hrival => ?_,
    value_margin hnamed, ?_⟩
  · exact ⟨bestOther_of_rival hnamed hdefined hrival, fun hnan => rival_same_eq_false hnan hrival⟩
  · rintro rfl
    exact variance_margin hnamed

/-- Four labels that score below zero on the feature `g`, the second and the third alike. -/
def lowSample : Registry :=
  (((Registry.empty.set (Key.ofText "A") (Key.ofText "g") ⟨-4, 1⟩).set (Key.ofText "B") (Key.ofText "g")
    ⟨-3, 1 / 2⟩).set (Key.ofText "C") (Key.ofText "g") ⟨-3, 1⟩).set (Key.ofText "D") (Key.ofText "g") ⟨-5, 1⟩

theorem margin_against_best_other_lowSample :
    ∃ margin rival, lowSample.marginOf true [⟨.text "g", 1⟩] (.text "A") = .ok margin ∧ margin.rival = some rival ∧
      rival.same (Key.ofText "B") = true ∧ lowSample.BestOther [⟨Key.ofText "g", 1⟩] (.text "A") rival ∧
      margin.value = -1 ∧ margin.variance = 3 / 2 := by
  have hcs : Feature.toCoordinates [⟨.text "g", 1⟩] = .ok [⟨Key.ofText "g", 1⟩] := rfl
  have hkey : (Datum.text "A").toKey = .ok (Key.ofText "A") := rfl
  have hnamed : lowSample.Named := by unfold Named; decide +kernel
  have hdefined : ∀ l ∈ lowSample.labels, (lowSample.storeOf l).score [⟨Key.ofText "g", 1⟩] ≠ .nan := by
    decide +kernel
  have hfirst : ((lowSample.margin true [⟨Key.ofText "g", 1⟩] (Key.ofText "A")).rival.any
      fun l => l.same (Key.ofText "B")) = true := by decide +kernel
  obtain ⟨margin, hmargin, -, hbest, hvalue, hvariance⟩ := margin_against_best_other true hcs hkey hnamed hdefined
  obtain rfl := Except.ok.inj ((marginOf_eq_ok hkey hcs).symm.trans hmargin)
  obtain ⟨rival, hrival, hsame⟩ := (Option.any_eq_true _ _).mp hfirst
  refine ⟨_, rival, hmargin, hrival, hsame, (hbest rival hrival).1, ?_, ?_⟩
  · rw [hvalue, hrival, Option.elim_some, storeOf_congr _ hsame]
    decide +kernel
  · rw [hvariance rfl, hrival, Option.elim_some, storeOf_congr _ hsame]
    decide +kernel

/-! ### Margins without variances -/

end Registry

/-- A margin without its variance. -/
def Margin.plain (m : Margin) : Margin := { m with variance := 0 }

namespace Registry
variable {r : Registry} {cs : List Coordinate} {key : Key}

theorem variance_margin_false (r : Registry) (cs : List Coordinate) (key : Key) :
    (r.margin false cs key).variance = 0 := by
  have hzero : (2 : Single) * 0 = 0 ∧ (0 : Single) + 0 = 0 := by decide
  rcases r.margin_cases false cs key with
    ⟨-, hmargin⟩ | ⟨-, -, hmargin⟩ | ⟨other, -, -, -, hmargin⟩ <;> rw [hmargin]
  · exact hzero.1
  · exact hzero.2
  · exact hzero.2

theorem margin_false_eq_plain (r : Registry) (cs : List Coordinate) (key : Key) :
    r.margin false cs key = (r.margin true cs key).plain := by
  obtain ⟨hvalue, hrival⟩ := margin_eq_plain r true cs key
  rw [Margin.plain, hvalue, hrival, ← variance_margin_false r cs key]

/-- Whether variances are wanted makes no difference to the fault, or else to the value and the rival of a
margin; where they are not, the variance is zero. Nor does it to the score of a store: one pass adds up the
same dot product. -/
theorem marginOf_without_variance (r : Registry) (fs : List Feature) (label : Datum) :
    r.marginOf false fs label = Margin.plain <$> r.marginOf true fs label ∧
      ∀ (s : Store) (cs : List Coordinate), (s.scoreAndVariance cs).1 = s.score cs := by
  refine ⟨?_, fun s cs => measure_fst true s cs⟩
  unfold marginOf
  cases label.toKey with
  | error e => rfl
  | ok key =>
    cases Feature.toCoordinates fs with
    | error e => rfl
    | ok cs => exact congrArg Except.ok (margin_false_eq_plain r cs key)

end Registry

end OnlineLearning
