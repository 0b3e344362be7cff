import OnlineLearning.Proofs.Replay.Skipping
import OnlineLearning.Proofs.Synthetic.Draws

/-!
# Synthetic traces are learned in full

As every token of a drawn example is a feature, every line of a synthetic trace is learned: a replay of the trace
ends well, has skipped nothing and knows no more labels than there are classes (`exists_summary`). This holds of
every source that can be drawn from (`made_trace_is_learned`).
-/

namespace OnlineLearning.Synthetic
variable {es : List Example} {quantile : Double → Double}

section
variable {classes : Nat} (husable : ∀ e ∈ es, e.Usable classes)
include husable

/-- A model that is trained on usable examples knows no more labels than there are classes. -/
theorem length_labels_le (learner : Learner) : (learner.trained (es.map Example.entry)).labels.length ≤ classes := by
  have hnames : (learner.trained (es.map Example.entry)).MadeOf
      (fun l => l.datum ∈ (List.range classes).map fun k => Datum.text (className k)) fun _ => True := by
    refine .trained learner fun entry hentry key cs hread => ⟨?_, fun _ _ => trivial⟩
    obtain ⟨e, he, rfl⟩ := List.mem_map.mp hentry
    obtain ⟨-, hkey, -⟩ := Learner.exists_of_readExample hread
    obtain ⟨k, hk, hlabel⟩ := (husable e he).label
    rw [Datum.toKey_eq_ok_iff.mp hkey]
    exact List.mem_map.mpr ⟨k, List.mem_range.mpr hk, congrArg (fun l : String => Datum.text l) hlabel.symm⟩
  simpa using hnames.length_labels_le

theorem exists_summary {s : Replay.Settings} {files : FileTree} {directory algorithm trace : String} {learner : Learner}
    (hready : Replay.Ready s files quantile directory algorithm trace (traceText es) learner) (start finish : Double) :
    ∃ summary, (Replay.run s start finish files quantile).result = .ok summary ∧
      summary.tally.total = es.length ∧ summary.tally.skipped = 0 ∧ summary.labels ≤ classes := by
  have hreadable : ∀ e ∈ es, e.IsReadable := fun e he => (husable e he).tokens
  obtain ⟨-, hskipped⟩ := fault?_ofTrace hreadable learner s.skipInvalid
  obtain ⟨tabled, done, hcourse⟩ := exists_course hreadable hready (finish - start)
  obtain ⟨htotal, -, -, hlabels, -⟩ := hcourse.counts
  rw [accepted_traceText hreadable] at htotal hlabels
  refine ⟨_, hcourse.run_eq.1, ?_, hskipped, ?_⟩
  · rw [htotal, List.length_map]
  · rw [hlabels]
    exact length_labels_le husable learner

end

/-! ### Traces that are made -/

namespace Settings

/-- The directory that is made for a trace. -/
def directoryOf (out : String) : String := if (Path.directory out).isEmpty then "." else Path.directory out

/-- What a run leaves, by the examples that it drew. -/
theorem run_eq {t : Settings} {source : Random.Source} {out : String} {fault? : Option Fault}
    {files made done : FileTree} (hout : t.out = .value out)
    (hmade : files.makeFromStart (directoryOf out) = (made, none)) (hes : t.examples source = (es, fault?))
    (hwrite : made.write out (traceText es) = .ok done) :
    t.run files source =
      fault?.elim { result := .ok (), files := done, printed := "Wrote " ++ out ++ "\n" } (.failed done) := by
  unfold directoryOf at hmade
  unfold run
  rw [hout]
  dsimp only [Given.orFault]
  unfold writeTo
  dsimp only
  rw [hmade, hes]
  dsimp only
  rw [hwrite]
  cases fault? <;> rfl

end Settings

variable {source : Random.Source} {limit count classes seed : Int} {noise : Double} {out : String}
  {files made : FileTree}

/-- From every source that starts from seeds that are not negative and draws below all bounds within a limit, a
synthetic trace is made, if there are classes to draw from within the limit, and a place to write to. It is read as
its examples, in order and with nothing dropped or skipped. Every token in it is a feature, and a replay of it counts
every example, skips nothing and knows no more labels than there are classes. -/
theorem made_trace_is_learned (hsource : source.Sound limit) (hlimit : 200 ≤ limit) (hcount : 0 ≤ count)
    (hclasses : 0 < classes) (hdraws : 0 < count → classes ≤ limit) (hseed : 0 ≤ seed)
    (hmade : files.makeFromStart (Settings.directoryOf out) = (made, none)) (hwritable : made.Writable out) :
    let t : Settings := ⟨.value count, .value classes, .value noise, .value seed, .value out⟩
    (t.run files source).result = .ok () ∧ ∃ es, t.examples source = (es, none) ∧ (es.length : Int) = count ∧
      (t.run files source).files.read out = .ok (traceText es) ∧
      (∀ skipMalformed, Trace.load skipMalformed (traceText es) = { examples := es.map Example.entry }) ∧
      (∀ e ∈ es, ∀ token ∈ e.tokens, ∃ f, Feature.ofToken (.text token) = .ok (some f)) ∧
      ∀ s quantile directory algorithm trace learner,
        Replay.Ready s (t.run files source).files quantile directory algorithm trace (traceText es) learner →
          ∀ start finish, ∃ summary,
            (Replay.run s start finish (t.run files source).files quantile).result = .ok summary ∧
            (summary.tally.total : Int) = count ∧ summary.tally.skipped = 0 ∧ (summary.labels : Int) ≤ classes := by
  intro t
  obtain ⟨es, hes, hlength, husable⟩ := exists_examples hsource hlimit noise hcount hclasses hdraws hseed
  obtain ⟨done, hwrite⟩ := hwritable (traceText es)
  have hrun := Settings.run_eq (t := t) rfl hmade hes hwrite
  rw [hrun]
  refine ⟨rfl, es, hes, hlength, FileTree.read_write hwrite, fun skipMalformed => load_traceText skipMalformed es,
    fun e he token htoken => ?_, fun s quantile directory algorithm trace learner hready start finish => ?_⟩
  · obtain ⟨f, hf⟩ := (husable e he).tokens token htoken
    exact ⟨f, Feature.ofToken_text_eq_ok_iff.mpr hf⟩
  · obtain ⟨summary, hresult, htotal, hskipped, hlabels⟩ := exists_summary husable hready start finish
    exact ⟨summary, hresult, by omega, hskipped, by omega⟩

/-- Settings of a trace of three examples in the directory where paths start. -/
def smallSettings (seed : Int) : Settings :=
  ⟨.value 3, .value 2, .value standardNoise, .value seed, .value "trace.jsonl"⟩

theorem makeFromStart_small : ({} : FileTree).makeFromStart (Settings.directoryOf "trace.jsonl") = ({}, none) := by
  show FileTree.makeAfter {} ".".toList = _
  unfold FileTree.makeAfter
  rfl

theorem run_smallSettings {seed : Int} {fault? : Option Fault} (hes : (smallSettings seed).examples = (es, fault?)) :
    (smallSettings seed).run {} =
      fault?.elim { result := .ok (), files := Replay.traceTree (traceText es), printed := "Wrote trace.jsonl\n" }
        (.failed (Replay.traceTree (traceText es))) := by
  have hwrite : ({} : FileTree).write "trace.jsonl" (traceText es) = .ok (Replay.traceTree (traceText es)) := rfl
  have hprinted : "Wrote " ++ "trace.jsonl" ++ "\n" = "Wrote trace.jsonl\n" := by decide
  rw [Settings.run_eq rfl makeFromStart_small hes hwrite, hprinted]

theorem made_trace_is_learned_smallSettings :
    ∃ es summary, (smallSettings 1).examples = (es, none) ∧ es.length = 3 ∧
      (Replay.run Replay.skippingSettings 0 1 ((smallSettings 1).run {}).files).result = .ok summary ∧
      summary.tally.total = 3 ∧ summary.tally.skipped = 0 ∧ summary.labels ≤ 2 := by
  obtain ⟨-, es, hes, hlength, -, -, -, hreplay⟩ :=
    @made_trace_is_learned Random.Generator.source Random.Generator.limit 3 2 1 standardNoise "trace.jsonl" {} {}
      Random.Generator.sound (by decide) (by decide) (by decide) (fun _ => by decide) (by decide) makeFromStart_small
      fun content => ⟨_, rfl⟩
  have hfiles : ((smallSettings 1).run {}).files = Replay.traceTree (traceText es) :=
    congrArg Execution.files (run_smallSettings hes)
  have hready := Replay.ready_traceTree (traceText es)
  rw [← hfiles] at hready
  obtain ⟨summary, hrun, htotal, hskipped, hlabels⟩ := hreplay _ _ _ _ _ _ hready 0 1
  exact ⟨es, summary, hes, by omega, hrun, by omega, hskipped, by omega⟩

/-- No example is made from a negative seed. -/
theorem run_smallSettings_fails : (smallSettings (-1)).examples = ([], some .negativeSeed) ∧
    ((smallSettings (-1)).run {}).result = .error .negativeSeed := by
  have hnegative : (smallSettings (-1)).examples = ([], some .negativeSeed) := rfl
  exact ⟨hnegative, congrArg Execution.result (run_smallSettings hnegative)⟩

end OnlineLearning.Synthetic
