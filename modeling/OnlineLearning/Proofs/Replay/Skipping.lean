import OnlineLearning.Proofs.Replay.Course
import OnlineLearning.Proofs.Replay.Table

/-!
# Replays that skip

A replay that may skip comes to an end unless a line ends it, and then it has counted each line that
it skipped and learned all other examples. What it learned can be written unless a label or a key has
a half of a pair in it (`run_ends_well_iff`). A replay that may not skip does the same on a trace
without those lines (`run_without`). Both are read off where a replay stands after a trace.
-/

namespace OnlineLearning.Replay
variable {s : Settings} {quantile : Double → Double} {files : FileTree} {start finish : Double} {trace text : String}

/-- How many of the lines of a text have a verdict. -/
def count (v : Trace.Verdict) (text : String) : Nat :=
  (Text.lines text.toList).countP fun line => Trace.verdict line = v

theorem count_eq (v : Trace.Verdict) (text : String) :
    count v text = ((Text.lines text.toList).map Trace.verdict).count v := by
  rw [count, List.count, List.countP_map]
  exact List.countP_congr fun line _ => by simp

namespace Progress
variable (learner : Learner) (skipInvalid : Bool)

theorem ofTrace_stands
    (hends : ∀ line ∈ Text.lines text.toList, Trace.verdict line ≠ .ends)
    (hskip : skipInvalid = true ∨ ∀ line ∈ Text.lines text.toList, Trace.verdict line ≠ .skipped) :
    (ofTrace learner skipInvalid text).Stands
      ((studyAll learner (.empty, {}) (Trace.examples (Text.lines text.toList))).1,
        (studyAll learner (.empty, {}) (Trace.examples (Text.lines text.toList))).2.skipMany
          (count .skipped text)) :=
  stands_foldl learner skipInvalid 1 ⟨rfl, rfl, rfl⟩ hends hskip

theorem forall_ne_ends_of_sound (h : (ofTrace learner skipInvalid text).fault? = none) :
    ∀ line ∈ Text.lines text.toList, Trace.verdict line ≠ .ends := by
  intro line hline hends
  have hsome := isSome_fault?_foldl learner skipInvalid 1 (p := {}) ⟨line, hline, hends⟩
    (isSome_fault?_takeLine learner skipInvalid)
  rw [ofTrace, Trace.numberedLines] at h
  rw [h] at hsome
  cases hsome

theorem forall_ne_skipped_of_sound (h : (ofTrace learner false text).fault? = none) :
    ∀ line ∈ Text.lines text.toList, Trace.verdict line ≠ .skipped := by
  intro line hline hskipped
  have hsome := isSome_fault?_foldl learner false 1 (p := {}) ⟨line, hline, hskipped⟩
    (isSome_fault?_takeLine_of_skipped learner)
  rw [ofTrace, Trace.numberedLines] at h
  rw [h] at hsome
  cases hsome

theorem stands_of_sound (h : (ofTrace learner skipInvalid text).fault? = none) :
    (ofTrace learner skipInvalid text).Stands
      ((studyAll learner (.empty, {}) (Trace.examples (Text.lines text.toList))).1,
        (studyAll learner (.empty, {}) (Trace.examples (Text.lines text.toList))).2.skipMany
          (count .skipped text)) := by
  refine ofTrace_stands learner skipInvalid (forall_ne_ends_of_sound learner skipInvalid h) ?_
  cases skipInvalid with
  | true => exact .inl rfl
  | false => exact .inr (forall_ne_skipped_of_sound learner h)

theorem registry_of_sound (h : (ofTrace learner skipInvalid text).fault? = none) :
    (ofTrace learner skipInvalid text).registry = learner.trained (Trace.examples (Text.lines text.toList)) := by
  rw [(stands_of_sound learner skipInvalid h).registry, registry_studyAll]
  rfl

theorem tally_of_sound (hskip : skipInvalid = true) (h : (ofTrace learner skipInvalid text).fault? = none) :
    (ofTrace learner skipInvalid text).tally.total = count .learned text ∧
      (ofTrace learner skipInvalid text).tally.skipped = count .skipped text := by
  have hstands := ofTrace_stands learner skipInvalid (forall_ne_ends_of_sound learner skipInvalid h) (.inl hskip)
  obtain ⟨htotal, hskipped⟩ := total_studyAll learner (.empty, {}) (Trace.examples (Text.lines text.toList))
  rw [hstands.tally]
  constructor
  · rw [Tally.total_skipMany, htotal, Trace.length_examples]
    exact Nat.zero_add _
  · rw [Tally.skipped_skipMany, hskipped]
    exact Nat.zero_add _

end Progress

/-- What a run needs besides a trace that nothing ends: a place for its results, a learner, and the
text of its trace. -/
structure Ready (s : Settings) (files : FileTree) (quantile : Double → Double)
    (directory algorithm trace text : String) (learner : Learner) : Prop where
  destination : s.destination = .ok (directory, algorithm)
  naming : Learner.ofName algorithm (parameter s.phi?) (parameter s.eta?) quantile = .ok learner
  tracing : s.trace = .value trace
  reading : files.read trace = .ok text
  making : (files.makeFromEnd directory).2 = none
  model : (files.makeFromEnd directory).1.Writable (modelPath directory)
  summary : (files.makeFromEnd directory).1.Writable (summaryPath directory)

section
variable {directory algorithm : String} {learner : Learner}

theorem Ready.load (h : Ready s files quantile directory algorithm trace text learner) :
    s.load algorithm (files.makeFromEnd directory).1 quantile = .ok (learner, trace, text) :=
  load_eq_ok_iff.mpr ⟨h.naming, h.tracing, FileTree.read_makeFromEnd directory h.reading⟩

theorem Ready.exists_course (h : Ready s files quantile directory algorithm trace text learner) (wall : Double)
    (hsound : (Progress.ofTrace learner s.skipInvalid text).fault? = none)
    (hplain : (learner.trained (Trace.examples (Text.lines text.toList))).Plain) :
    ∃ tabled done, Course s quantile wall files
      ⟨directory, algorithm, trace, learner, Progress.ofTrace learner s.skipInvalid text⟩ text
      (files.makeFromEnd directory).1 tabled done := by
  obtain ⟨tabled, htabled⟩ := h.model
    (modelTable (Progress.ofTrace learner s.skipInvalid text).registry.rows).1
  obtain ⟨done, hdone⟩ := h.summary.of_write htabled
    (Finished.summary ⟨directory, algorithm, trace, learner, Progress.ofTrace learner s.skipInvalid text⟩ wall).text
  have hmaking : files.makeFromEnd directory = ((files.makeFromEnd directory).1, none) := by
    rw [← h.making]
  have hencodes : (modelTable (Progress.ofTrace learner s.skipInvalid text).registry.rows).2 = none := by
    rw [Progress.registry_of_sound learner s.skipInvalid hsound]
    exact fault?_modelTable_iff.mpr hplain
  exact ⟨tabled, done, h.destination, hmaking, h.load, rfl, hsound, hencodes, htabled, hdone⟩

theorem Ready.exists_result (h : Ready s files quantile directory algorithm trace text learner)
    (hskip : s.skipInvalid = true) (hlines : ∀ line ∈ Text.lines text.toList, Trace.verdict line ≠ .ends)
    (hplain : (learner.trained (Trace.examples (Text.lines text.toList))).Plain) (start finish : Double) :
    ∃ summary, (run s start finish files quantile).result = .ok summary := by
  have hstands := Progress.ofTrace_stands learner s.skipInvalid hlines (.inl hskip)
  obtain ⟨tabled, done, hcourse⟩ := h.exists_course (finish - start) hstands.sound hplain
  exact ⟨_, hcourse.run_eq.1⟩

theorem Ready.eq_of_load (h : Ready s files quantile directory algorithm trace text learner)
    {directory' algorithm' trace' text' : String} {learner' : Learner}
    (hdestination : s.destination = .ok (directory', algorithm'))
    (hload : s.load algorithm' (files.makeFromEnd directory').1 quantile = .ok (learner', trace', text')) :
    directory' = directory ∧ learner' = learner ∧ text' = text := by
  obtain ⟨rfl, rfl⟩ := Prod.mk.inj (Except.ok.inj (hdestination.symm.trans h.destination))
  obtain ⟨hlearner, hloaded⟩ := Prod.mk.inj (Except.ok.inj (hload.symm.trans h.load))
  exact ⟨rfl, hlearner, (Prod.mk.inj hloaded).2⟩

/-- The replay of a course is the one of the text that it is ready for. -/
theorem Ready.progress_eq (h : Ready s files quantile directory algorithm trace text learner) {wall : Double}
    {f : Finished} {text' : String} {made tabled done : FileTree}
    (hcourse : Course s quantile wall files f text' made tabled done) :
    f.progress = Progress.ofTrace learner s.skipInvalid text := by
  have hload := hcourse.load
  have hmade : (files.makeFromEnd f.directory).1 = made := by rw [hcourse.making]
  rw [← hmade] at hload
  obtain ⟨-, hlearner, htext⟩ := h.eq_of_load hcourse.destination hload
  rw [← hcourse.progress, hlearner, htext]

/-- A run that may skip has a result exactly if no line ends it and the labels and keys that it has learned can be
written. Its result counts every line that was learned and every one that was skipped. -/
theorem run_ends_well_iff (h : Ready s files quantile directory algorithm trace text learner)
    (hskip : s.skipInvalid = true) :
    ((∃ summary, (run s start finish files quantile).result = .ok summary) ↔
      (∀ line ∈ Text.lines text.toList, Trace.verdict line ≠ .ends) ∧
        (learner.trained (Trace.examples (Text.lines text.toList))).Plain) ∧
    ∀ summary, (run s start finish files quantile).result = .ok summary →
      summary.tally.total = count .learned text ∧ summary.tally.skipped = count .skipped text := by
  have hends : ∀ summary, (run s start finish files quantile).result = .ok summary →
      (Progress.ofTrace learner s.skipInvalid text).fault? = none ∧
        (modelTable (Progress.ofTrace learner s.skipInvalid text).registry.rows).2 = none ∧
        summary.tally = (Progress.ofTrace learner s.skipInvalid text).tally := by
    intro summary hrun
    obtain ⟨f, text', made, tabled, done, hcourse, rfl⟩ := exists_course_iff.mp hrun
    rw [← h.progress_eq hcourse]
    exact ⟨hcourse.sound, hcourse.encodes, rfl⟩
  refine ⟨⟨fun ⟨summary, hrun⟩ => ?_, fun ⟨hlines, hplain⟩ => ?_⟩, fun summary hrun => ?_⟩
  · obtain ⟨hsound, hencodes, -⟩ := hends summary hrun
    refine ⟨Progress.forall_ne_ends_of_sound learner s.skipInvalid hsound, ?_⟩
    rw [← Progress.registry_of_sound learner s.skipInvalid hsound]
    exact fault?_modelTable_iff.mp hencodes
  · exact h.exists_result hskip hlines hplain start finish
  · obtain ⟨hsound, -, htally⟩ := hends summary hrun
    rw [htally]
    exact Progress.tally_of_sound learner s.skipInvalid hskip hsound

end

/-- Settings under which the lines of a trace may be skipped. -/
def skippingSettings : Settings := { trace := .value "trace.jsonl", skipInvalid := true }

/-- A tree that holds a trace and nothing else. -/
def traceTree (text : String) : FileTree := { nodes := [(["trace.jsonl"], .file text)] }

theorem ready_traceTree (text : String) :
    Ready skippingSettings (traceTree text) Gaussian.quantile "results/cw" "cw" "trace.jsonl" text
      (.confidenceWeighted 1) := by
  constructor
  · rfl
  · rfl
  · rfl
  · rfl
  · rfl
  · exact fun content => ⟨_, rfl⟩
  · exact fun content => ⟨_, rfl⟩

/-- Examples that are learned, between lines of every other sort that a replay comes over. -/
def mixedTrace : String :=
  "\x7b\"features\": [\"a\", 1], \"label\": \"x\"\x7d\r\n\x7b\"features\"\r\n\r\n[]\n" ++
    "\x7b\"features\": [\"b:c\"], \"label\": []\x7d\n\x7b\"features\": [true], \"label\": 2\x7d"

theorem verdicts_mixedTrace : (Text.lines mixedTrace.toList).map Trace.verdict =
    [.learned, .skipped, .passed, .passed, .skipped, .learned] := by decide +kernel

theorem mixedTrace_ne_ends : ∀ line ∈ Text.lines mixedTrace.toList, Trace.verdict line ≠ .ends := by
  have h : ∀ v ∈ (Text.lines mixedTrace.toList).map Trace.verdict, v ≠ .ends := by
    rw [verdicts_mixedTrace]
    decide
  exact fun line hline => h _ (List.mem_map_of_mem hline)

theorem plain_mixedTrace :
    (Learner.trained (.confidenceWeighted 1) (Trace.examples (Text.lines mixedTrace.toList))).Plain := by decide +kernel

theorem run_ends_well_mixedTrace :
    ∃ summary, (run skippingSettings 0 1 (traceTree mixedTrace)).result = .ok summary ∧
      summary.tally.total = 2 ∧ summary.tally.skipped = 2 := by
  obtain ⟨hiff, hcount⟩ := run_ends_well_iff (ready_traceTree mixedTrace) rfl
  obtain ⟨summary, hrun⟩ := hiff.mpr ⟨mixedTrace_ne_ends, plain_mixedTrace⟩
  obtain ⟨htotal, hskipped⟩ := hcount summary hrun
  rw [count_eq, verdicts_mixedTrace] at htotal hskipped
  exact ⟨summary, hrun, htotal, hskipped⟩

/-- A label that is half of a pair is learned, and cannot be written. -/
example : let ls := Text.lines "\x7b\"features\": [\"a\"], \"label\": \"\\ud800\"\x7d\n".toList
    ls.map Trace.verdict = [.learned] ∧ ¬(Learner.trained .perceptron (Trace.examples ls)).Plain := by decide +kernel

/-- An example whose label is a list, before one that could be learned. -/
def listLabelTrace : String :=
  "\x7b\"features\": [\"a\"], \"label\": [\"x\"]\x7d\n\x7b\"features\": [\"a\"], \"label\": \"x\"\x7d\n"

/-- The kind of the datum that ended a run because it cannot be a key. -/
def unusableKind? (x : Execution Summary) : Option Datum.Kind :=
  match x.result with
  | .error (.notAKey kind) => some kind
  | _ => none

theorem result_of_unusableKind? {x : Execution Summary} {kind : Datum.Kind} (h : unusableKind? x = some kind) :
    x.result = .error (.notAKey kind) := by
  unfold unusableKind? at h
  split at h
  · rename_i hx
    rw [hx, Option.some.inj h]
  · cases h

theorem run_listLabelTrace :
    Ready skippingSettings (traceTree listLabelTrace) Gaussian.quantile "results/cw" "cw" "trace.jsonl" listLabelTrace
        (.confidenceWeighted 1) ∧
      skippingSettings.skipInvalid = true ∧
      (run skippingSettings 0 1 (traceTree listLabelTrace)).result = .error (.notAKey .list) :=
  ⟨ready_traceTree _, rfl, result_of_unusableKind? (by decide +kernel)⟩

/-! ### The trace without the lines that are skipped -/

theorem Tally.skipMany_zero_eq {t : Tally} (n : Nat) (h : t.skipped = 0) :
    t.skipMany 0 = { t.skipMany n with skipped := 0 } := by
  obtain ⟨total, correct, updates, skipped⟩ := t
  dsimp only at h
  rw [skipMany, skipMany, h]

/-- A replay that may not skip, on a trace without the lines that one that may skip leaves out. -/
theorem ofTrace_without {text' : String} {learner : Learner} (h : Trace.Without text text')
    (hsound : (Progress.ofTrace learner true text).fault? = none) :
    (Progress.ofTrace learner false text').Stands ((Progress.ofTrace learner true text).registry,
      { (Progress.ofTrace learner true text).tally with skipped := 0 }) := by
  have hends := Progress.forall_ne_ends_of_sound learner true hsound
  have hstands := Progress.ofTrace_stands learner true hends (.inl rfl)
  have hends' : ∀ line ∈ Text.lines text'.toList, Trace.verdict line ≠ .ends := fun line hline hv =>
    hends line (h.verdict_mem hline (by rw [hv]; decide)).1 hv
  have hskip' : ∀ line ∈ Text.lines text'.toList, Trace.verdict line ≠ .skipped := fun line hline hv =>
    (h.verdict_mem hline (by rw [hv]; decide)).2 hv
  have hcount : count .skipped text' = 0 :=
    List.countP_eq_zero.mpr fun line hline => by simpa using hskip' line hline
  have hstands' := Progress.ofTrace_stands learner false hends' (.inr hskip')
  rw [h.examples_eq, hcount] at hstands'
  refine ⟨hstands'.sound, hstands'.registry.trans hstands.registry.symm, ?_⟩
  rw [hstands'.tally, hstands.tally]
  exact Tally.skipMany_zero_eq _ (total_studyAll learner _ _).2

/-- A run that may not skip does on trees of the same shape what one that may skip has done, if its
trace has the other lines. -/
theorem Course.without {f : Finished} {text' trace : String} {made tabled done files' : FileTree}
    (h : Course s quantile (finish - start) files f text made tabled done) (hskip : s.skipInvalid = true)
    (hwithout : Trace.Without text text') (hshape : files.SameShape files')
    (htrace : s.trace = .value trace) (hread : files'.read trace = .ok text') (wall : Double) :
    ∃ f' made' tabled' done', Course { s with skipInvalid := false } quantile wall files' f' text' made' tabled' done' ∧
      f'.directory = f.directory ∧ f'.progress.registry = f.progress.registry ∧
      f'.progress.tally = { f.progress.tally with skipped := 0 } := by
  obtain ⟨hlearner, -, -⟩ := load_eq_ok_iff.mp h.load
  have hsound := h.sound
  rw [← h.progress, hskip] at hsound
  have hstands := ofTrace_without hwithout hsound
  rw [← hskip, h.progress] at hstands
  -- the texts of files do not matter to what is made and written below
  obtain ⟨hmaking', hmade⟩ := hshape.makeFromEnd_eq h.making
  have hload' : Settings.load { s with skipInvalid := false } f.algorithm (files'.makeFromEnd f.directory).1 quantile =
      .ok (f.learner, trace, text') :=
    load_eq_ok_iff.mpr ⟨hlearner, htrace, FileTree.read_makeFromEnd f.directory hread⟩
  obtain ⟨tabled', htabled', htabled⟩ := hmade.exists_write h.model (modelTable f.progress.registry.rows).1
  let f' : Finished := ⟨f.directory, f.algorithm, trace, f.learner, Progress.ofTrace f.learner false text'⟩
  obtain ⟨done', hdone', -⟩ := htabled.exists_write h.summary (f'.summary wall).text
  have hregistry : f'.progress.registry = f.progress.registry := hstands.registry
  refine ⟨f', _, tabled', done', ⟨h.destination, hmaking', hload', rfl, hstands.sound, ?_, ?_, hdone'⟩, rfl,
    hregistry, hstands.tally⟩
  · rw [hregistry]
    exact h.encodes
  · rw [hregistry]
    exact htabled'

theorem Summary.accuracy_congr {a b : Summary} (htotal : a.tally.total = b.tally.total)
    (hcorrect : a.tally.correct = b.tally.correct) : a.accuracy = b.accuracy := by
  rw [accuracy, accuracy, htotal, hcorrect]

theorem skipped_of_course {f : Finished} {wall : Double} {made tabled done : FileTree}
    (h : Course s quantile wall files f text made tabled done) (hskip : s.skipInvalid = true) :
    f.progress.tally.skipped = count .skipped text := by
  have hsound := h.sound
  rw [← h.progress] at hsound ⊢
  exact (Progress.tally_of_sound f.learner s.skipInvalid hskip hsound).2

/-- What a run that may skip gives, one that may not gives for the trace without the skipped lines:
the same table of weights and the same figures, but for the skipped lines, which are as many as were
left out. -/
theorem run_without {summary : Summary} (hskip : s.skipInvalid = true) (htrace : s.trace = .value trace)
    (hread : files.read trace = .ok text) (hrun : (run s start finish files quantile).result = .ok summary) :
    summary.tally.skipped = count .skipped text ∧
    Trace.Without text (Trace.withoutSkipped text) ∧
    ∃ directory algorithm model, s.destination = .ok (directory, algorithm) ∧
      (run s start finish files quantile).files.read (modelPath directory) = .ok model ∧
      ∀ text', Trace.Without text text' → ∀ start' finish', ∃ files' summary',
        files.write trace text' = .ok files' ∧
        (run { s with skipInvalid := false } start' finish' files' quantile).result = .ok summary' ∧
        (run { s with skipInvalid := false } start' finish' files' quantile).files.read (modelPath directory) =
          .ok model ∧
        summary'.tally = { summary.tally with skipped := 0 } ∧ summary'.labels = summary.labels ∧
        summary'.weights = summary.weights ∧ summary'.accuracy = summary.accuracy := by
  obtain ⟨f, text₁, made, tabled, done, hcourse, rfl⟩ := exists_course_iff.mp hrun
  obtain ⟨-, htrace₁, hread₁⟩ := load_eq_ok_iff.mp hcourse.load
  obtain rfl : f.trace = trace := Given.value.inj (htrace₁.symm.trans htrace)
  have hread₂ := FileTree.read_makeFromEnd f.directory hread
  rw [hcourse.making] at hread₂
  obtain rfl : text₁ = text := Except.ok.inj (hread₁.symm.trans hread₂)
  refine ⟨skipped_of_course hcourse hskip, Trace.without_withoutSkipped _, f.directory, f.algorithm,
    (modelTable f.progress.registry.rows).1, hcourse.destination, ?_, fun text' hwithout start' finish' => ?_⟩
  · rw [hcourse.run_eq.2]
    exact hcourse.read_model
  obtain ⟨place, hplace, hnode, hstroke⟩ := FileTree.read_eq_ok_iff.mp hread
  have hwrite : files.write f.trace text' = .ok (files.put place (.file text')) :=
    FileTree.write_eq_ok_iff.mpr ⟨place, hplace, hstroke, by rw [hnode]; simp, rfl⟩
  obtain ⟨f', made', tabled', done', hcourse', hdirectory, hregistry, htally⟩ :=
    hcourse.without hskip hwithout (FileTree.SameShape.put_file hnode text') htrace
      (FileTree.read_write hwrite) (finish' - start')
  have hmodel := hcourse'.read_model
  rw [hdirectory, hregistry] at hmodel
  refine ⟨_, _, hwrite, hcourse'.run_eq.1, ?_, htally, ?_, ?_, ?_⟩
  · rw [hcourse'.run_eq.2]
    exact hmodel
  · exact congrArg Registry.size hregistry
  · exact congrArg Registry.weightCount hregistry
  · have htotal : f'.progress.tally.total = f.progress.tally.total := by rw [htally]
    have hcorrect : f'.progress.tally.correct = f.progress.tally.correct := by rw [htally]
    exact Summary.accuracy_congr htotal hcorrect

/-- The mixed trace without the two lines that are skipped. -/
def keptTrace : String :=
  "\x7b\"features\": [\"a\", 1], \"label\": \"x\"\x7d\r\n\r\n[]\n" ++
    "\x7b\"features\": [true], \"label\": 2\x7d"

theorem run_without_mixedTrace :
    Trace.Without mixedTrace keptTrace ∧ ∃ summary files' summary',
      (run skippingSettings 0 1 (traceTree mixedTrace)).result = .ok summary ∧
      summary.tally.skipped = 2 ∧
      (traceTree mixedTrace).write "trace.jsonl" keptTrace = .ok files' ∧
      (run { skippingSettings with skipInvalid := false } 0 2 files').result = .ok summary' ∧
      summary'.tally = { summary.tally with skipped := 0 } ∧ summary'.weights = summary.weights := by
  have hwithout : Trace.Without mixedTrace keptTrace := by
    unfold Trace.Without
    decide +kernel
  obtain ⟨summary, hrun⟩ := (ready_traceTree mixedTrace).exists_result rfl mixedTrace_ne_ends plain_mixedTrace 0 1
  obtain ⟨hskipped, -, directory, algorithm, model, -, -, hall⟩ := run_without rfl rfl rfl hrun
  obtain ⟨files', summary', hwrite, hrun', -, htally, -, hweights, -⟩ := hall keptTrace hwithout 0 2
  rw [count_eq, verdicts_mixedTrace] at hskipped
  exact ⟨hwithout, summary, files', summary', hrun, hskipped, hwrite, hrun', htally, hweights⟩

end OnlineLearning.Replay
