import Mathlib.Data.List.Infix
import OnlineLearning.Proofs.Learning.Growth
import OnlineLearning.Proofs.Replay.Accepted
import OnlineLearning.Proofs.Replay.Skipping

/-!
# What the counts of a run count

A run counts the examples that it accepts, the predictions that were right before their example was learned,
and the changes of the model. Along a replay there are never more right predictions or changes than examples,
and never more labels than changes (`Counted`); in the end the model is the one of the accepted examples, and
the table of weights has a record for each of its weights.
-/

namespace OnlineLearning

namespace Replay
variable {learner : Learner} {es : List (List Datum × Datum)}

/-- Every example with those before it. -/
def withHistory {α : Type} (es : List α) : List (List α × α) := es.inits.zip es

theorem withHistory_cons {α : Type} (e : α) (es : List α) :
    withHistory (e :: es) = ([], e) :: (withHistory es).map (Prod.map (List.cons e) id) := by
  rw [withHistory, List.inits_cons, List.zip_cons_cons, List.zip_map_left, withHistory]

/-- Whether a learner predicts the label of an example after those before it. -/
def predicts (learner : Learner) (h : List (List Datum × Datum) × List Datum × Datum) : Bool :=
  guessed (learner.trained h.1) h.2.1 h.2.2

/-! ### Counts along a replay -/

/-- No count is too high for the examples, and no label came without a change. -/
structure Counted (s : Registry × Tally) : Prop where
  correct_le : s.2.correct ≤ s.2.total
  labels_le : s.1.labels.length ≤ s.2.updates
  updates_le : s.2.updates ≤ s.2.total

theorem Counted.empty : Counted (.empty, {}) := ⟨Nat.le_refl 0, Nat.le_refl 0, Nat.le_refl 0⟩

theorem Counted.study {s : Registry × Tally} (h : Counted s) (learner : Learner) (e : List Datum × Datum) :
    Counted (study learner s e) := by
  constructor
  · show (if guessed s.1 e.1 e.2 then s.2.correct + 1 else s.2.correct) ≤ s.2.total + 1
    have hcorrect := h.correct_le
    split <;> omega
  · show (learner.train s.1 (.list e.1) e.2).registry.labels.length ≤
      if changed (learner.train s.1 (.list e.1) e.2) then s.2.updates + 1 else s.2.updates
    have hlabels := h.labels_le
    rcases Registry.grown_train learner s.1 (.list e.1) e.2 with hkept | ⟨hresult, key, -, hgrown⟩
    · rw [hkept]
      split <;> omega
    · have hlength := hgrown.length_le
      rw [changed, hresult]
      simp only [if_true]
      omega
  · show (if changed (learner.train s.1 (.list e.1) e.2) then s.2.updates + 1 else s.2.updates) ≤ s.2.total + 1
    have hupdates := h.updates_le
    split <;> omega

theorem Counted.studyAll {s : Registry × Tally} (h : Counted s) (learner : Learner)
    (es : List (List Datum × Datum)) : Counted (studyAll learner s es) := by
  unfold Replay.studyAll
  exact List.foldlRecOn (motive := Counted) es _ h fun s hs e _ => hs.study learner e

theorem correct_studyAll (learner : Learner) (s : Registry × Tally) (es : List (List Datum × Datum)) :
    (studyAll learner s es).2.correct = s.2.correct + (withHistory es).countP fun h =>
      guessed (s.1.afterAll (h.1.map fun e => .train learner (.list e.1) e.2)) h.2.1 h.2.2 := by
  induction es generalizing s with
  | nil => rfl
  | cons e es ih =>
    -- what comes before a later example starts with this one
    refine (ih (study learner s e)).trans ?_
    have hfirst : (study learner s e).2.correct = s.2.correct + if guessed s.1 e.1 e.2 then 1 else 0 := by
      show (if guessed s.1 e.1 e.2 then s.2.correct + 1 else s.2.correct) = _
      split <;> rfl
    rw [withHistory_cons, List.countP_cons, List.countP_map, hfirst, Nat.add_assoc]
    exact congrArg (s.2.correct + ·) (Nat.add_comm _ _)

/-! ### Counts of a run -/

namespace Progress

/-- If nothing ends a replay, the accepted examples are those on the lines that it learned. -/
theorem accepted_eq {skipInvalid : Bool} {text : String} (h : (ofTrace learner skipInvalid text).fault? = none) :
    Trace.accepted skipInvalid text = Trace.examples (Text.lines text.toList) := by
  have hskip : skipInvalid = true ∨ ∀ line ∈ Text.lines text.toList, Trace.verdict line ≠ .skipped := by
    cases skipInvalid with
    | true => exact .inl rfl
    | false => exact .inr (forall_ne_skipped_of_sound learner h)
  exact Trace.accepted_eq (forall_ne_ends_of_sound learner skipInvalid h) hskip

/-- Where a replay stands if nothing ended it, by the examples that it accepted. -/
theorem stands_accepted {skipInvalid : Bool} {text : String}
    (h : (ofTrace learner skipInvalid text).fault? = none) :
    (ofTrace learner skipInvalid text).Stands
      ((studyAll learner (.empty, {}) (Trace.accepted skipInvalid text)).1,
        (studyAll learner (.empty, {}) (Trace.accepted skipInvalid text)).2.skipMany (count .skipped text)) := by
  rw [accepted_eq h]
  exact stands_of_sound learner skipInvalid h

end Progress

variable {s : Settings} {quantile : Double → Double} {files : FileTree} {start finish : Double}

theorem Course.counts {wall : Double} {f : Finished} {text : String} {made tabled done : FileTree}
    (h : Course s quantile wall files f text made tabled done) :
    let es := Trace.accepted s.skipInvalid text
    (f.summary wall).tally.total = es.length ∧
      (f.summary wall).tally.correct = (withHistory es).countP (predicts f.learner) ∧
      (f.summary wall).tally.correct ≤ (f.summary wall).tally.total ∧
      (f.summary wall).labels = (f.learner.trained es).labels.length ∧
      (f.summary wall).labels ≤ (f.summary wall).tally.updates ∧
      (f.summary wall).tally.updates ≤ (f.summary wall).tally.total ∧
      (f.summary wall).weights = (f.learner.trained es).rows.length ∧
      Csv.records (modelTable f.progress.registry.rows).1 =
        modelHeader :: (f.learner.trained es).rows.map modelRecord := by
  intro es
  have hsound := h.sound
  rw [← h.progress] at hsound
  have hstands : f.progress.Stands ((studyAll f.learner (.empty, {}) es).1,
      (studyAll f.learner (.empty, {}) es).2.skipMany (count .skipped text)) := by
    rw [← h.progress]
    exact Progress.stands_accepted hsound
  have hcounted : Counted (studyAll f.learner (.empty, {}) es) := Counted.empty.studyAll f.learner es
  have hregistry : f.progress.registry = f.learner.trained es := by
    rw [hstands.registry, registry_studyAll]
    rfl
  have hlabels : f.progress.registry.size = f.progress.registry.labels.length := Registry.size_eq_length _
  simp only [Finished.summary, hlabels]
  refine ⟨?_, ?_, ?_, by rw [hregistry], ?_, ?_, ?_, ?_⟩
  · rw [hstands.tally, Tally.total_skipMany, (total_studyAll _ _ es).1]
    exact Nat.zero_add _
  · rw [hstands.tally, Tally.correct_skipMany, correct_studyAll]
    exact Nat.zero_add _
  · rw [hstands.tally, Tally.correct_skipMany, Tally.total_skipMany]
    exact hcounted.correct_le
  · rw [hstands.registry, hstands.tally, Tally.updates_skipMany]
    exact hcounted.labels_le
  · rw [hstands.tally, Tally.updates_skipMany, Tally.total_skipMany]
    exact hcounted.updates_le
  · rw [← Registry.length_rows, hregistry]
  · rw [records_modelTable h.encodes, hregistry]

/-- The counts of a run that ends well: its right predictions are those of examples whose label is predicted
by a learner that was trained on the accepted examples before, it knows no more labels than it made changes,
and its weights are the records in the table of weights. -/
theorem counts_of_run {summary : Summary} (hrun : (run s start finish files quantile).result = .ok summary) :
    ∃ directory algorithm learner trace text model es, s.destination = .ok (directory, algorithm) ∧
      s.load algorithm (files.makeFromEnd directory).1 quantile = .ok (learner, trace, text) ∧
      (run s start finish files quantile).files.read (modelPath directory) = .ok model ∧
      es = Trace.accepted s.skipInvalid text ∧
      summary.tally.total = es.length ∧ summary.tally.correct = (withHistory es).countP (predicts learner) ∧
      summary.tally.correct ≤ summary.tally.total ∧
      summary.labels = (learner.trained es).labels.length ∧
      summary.labels ≤ summary.tally.updates ∧ summary.tally.updates ≤ summary.tally.total ∧
      summary.weights = (learner.trained es).rows.length ∧
      Csv.records model = modelHeader :: (learner.trained es).rows.map modelRecord := by
  obtain ⟨f, text, made, tabled, done, hcourse, rfl⟩ := exists_course_iff.mp hrun
  have hmade : (files.makeFromEnd f.directory).1 = made := by rw [hcourse.making]
  refine ⟨f.directory, f.algorithm, f.learner, f.trace, text, (modelTable f.progress.registry.rows).1,
    Trace.accepted s.skipInvalid text, hcourse.destination, hmade.symm ▸ hcourse.load, ?_, rfl, ?_⟩
  · rw [hcourse.run_eq.2]
    exact hcourse.read_model
  · exact hcourse.counts

theorem counts_of_run_mixedTrace :
    ∃ summary model, (run skippingSettings 0 1 (traceTree mixedTrace)).result = .ok summary ∧
      (run skippingSettings 0 1 (traceTree mixedTrace)).files.read (modelPath "results/cw") = .ok model ∧
      summary.tally.total = 2 ∧ summary.tally.correct ≤ 2 ∧ summary.labels ≤ summary.tally.updates ∧
      summary.tally.updates ≤ 2 ∧ (Csv.records model).length = summary.weights + 1 := by
  have hready := ready_traceTree mixedTrace
  obtain ⟨summary, hrun⟩ := hready.exists_result rfl mixedTrace_ne_ends plain_mixedTrace 0 1
  obtain ⟨directory, algorithm, learner, trace, text, model, es, hdestination, hload, hmodel, rfl, htotal, -,
    hcorrect, -, hlabels, hupdates, hweights, hread⟩ := counts_of_run hrun
  obtain ⟨rfl, rfl⟩ := Prod.mk.inj (Except.ok.inj (hdestination.symm.trans hready.destination))
  obtain ⟨rfl, hloaded⟩ := Prod.mk.inj (Except.ok.inj (hload.symm.trans hready.load))
  obtain ⟨rfl, rfl⟩ := Prod.mk.inj hloaded
  have htwo : (Trace.accepted skippingSettings.skipInvalid mixedTrace).length = 2 := by
    rw [show skippingSettings.skipInvalid = true from rfl, Trace.accepted_eq mixedTrace_ne_ends (.inl rfl),
      Trace.length_examples]
    show count .learned mixedTrace = 2
    rw [count_eq, verdicts_mixedTrace]
    rfl
  rw [htwo] at htotal
  rw [htotal] at hcorrect hupdates
  refine ⟨summary, model, hrun, hmodel, htotal, hcorrect, hlabels, hupdates, ?_⟩
  rw [hread, List.length_cons, List.length_map, hweights]

end Replay

end OnlineLearning
