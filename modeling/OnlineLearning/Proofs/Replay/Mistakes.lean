import OnlineLearning.Proofs.Learning.Mistakes
import OnlineLearning.Proofs.Replay.Skipping

/-!
# Mistakes and updates of a replay

A replay with a perceptron makes no more mistakes than it makes updates and overlooks examples. Each
example adds to the counts what `Learner.changed_of_mistake` says of it; the rest is an induction on
the examples, along which no label is ever null.
-/

namespace OnlineLearning

/-- Whether a perceptron overlooks an example. -/
def Registry.overlooksExample (r : Registry) (tokens label : Datum) : Bool :=
  match Learner.readExample tokens label with
  | .ok (key, cs) => r.overlooks cs key
  | .error _ => false

namespace Replay
variable {r : Registry} {tokens label : Datum} {es : List (List Datum × Datum)}

/-- How many of the examples that a perceptron learns one after another it overlooks. -/
def overlooked (r : Registry) : List (List Datum × Datum) → Nat
  | [] => 0
  | e :: es =>
    (if r.overlooksExample (.list e.1) e.2 then 1 else 0) +
      overlooked (Learner.perceptron.train r (.list e.1) e.2).registry es

theorem exists_changed {key : Key} {cs : List Coordinate}
    (hread : Learner.readExample tokens label = .ok (key, cs)) (hnamed : r.Named) :
    ∃ predicted changed, r.predictTokens tokens = .ok predicted ∧
      (Learner.perceptron.train r tokens label).result = .ok changed ∧
      ((predicted.any fun p => p.datum.equals label) = false → changed = !r.overlooksExample tokens label) := by
  obtain ⟨-, hkey, -⟩ := Learner.exists_of_readExample hread
  have hlabel : key.datum = label := Datum.toKey_eq_ok_iff.mp hkey
  refine ⟨_, _, Learner.predictTokens_of_readExample hread r, Learner.perceptron.result_train hread r, ?_⟩
  intro hmistake
  rw [← hlabel] at hmistake
  rw [Registry.overlooksExample, hread]
  exact Learner.changed_of_mistake hnamed hmistake

/-- One example: a mistake is an update, or it is overlooked. -/
theorem one_le_of_mistake {e : List Datum × Datum}
    (hread : ∃ key cs, Learner.readExample (.list e.1) e.2 = .ok (key, cs)) (hnamed : r.Named)
    (hguessed : guessed r e.1 e.2 = false) :
    changed (Learner.perceptron.train r (.list e.1) e.2) = !r.overlooksExample (.list e.1) e.2 := by
  obtain ⟨key, cs, hread⟩ := hread
  obtain ⟨predicted, b, hpredicted, hresult, hchanged⟩ := exists_changed hread hnamed
  rw [guessed, hpredicted] at hguessed
  rw [changed, hresult]
  exact hchanged hguessed

theorem mistakes_studyAll (hread : ∀ e ∈ es, ∃ key cs, Learner.readExample (.list e.1) e.2 = .ok (key, cs))
    (hnamed : r.Named) (t : Tally) (n : Nat) (ht : t.total ≤ t.correct + t.updates + n) :
    (studyAll .perceptron (r, t) es).2.total ≤
      (studyAll .perceptron (r, t) es).2.correct + (studyAll .perceptron (r, t) es).2.updates +
        (n + overlooked r es) := by
  induction es generalizing r t n with
  | nil => exact ht
  | cons e es ih =>
    obtain ⟨he, hread⟩ := List.forall_mem_cons.mp hread
    have hnamed' : (Learner.perceptron.train r (.list e.1) e.2).registry.Named :=
      hnamed.afterAll [.train .perceptron (.list e.1) e.2]
    have hone := one_le_of_mistake he hnamed
    rw [overlooked, ← Nat.add_assoc n]
    refine ih hread hnamed' _ _ ?_
    show t.total + 1 ≤ (if guessed r e.1 e.2 then t.correct + 1 else t.correct) +
      (if changed (Learner.perceptron.train r (.list e.1) e.2) then t.updates + 1 else t.updates) + _
    cases hg : guessed r e.1 e.2 with
    | true =>
      rw [if_pos rfl]
      split <;> split <;> omega
    | false =>
      rw [hone hg]
      cases r.overlooksExample (.list e.1) e.2 <;> simp <;> omega

end Replay

namespace Trace

theorem exists_readExample_of_mem {ls : List (List Char)} {e : List Datum × Datum} (h : e ∈ examples ls) :
    ∃ key cs, Learner.readExample (.list e.1) e.2 = .ok (key, cs) := by
  obtain ⟨line, hline, hexample⟩ := List.mem_filterMap.mp h
  have hverdict : verdict line = .learned := by simpa using (List.mem_filter.mp hline).2
  have hreading := reading 0 line
  rw [hverdict] at hreading
  generalize readLine 0 line = x at hreading
  cases hreading with
  | labelled tokens label hv hexample' htokens hlabel hnull =>
    obtain rfl := Option.some.inj (hexample'.symm.trans hexample)
    exact Replay.Progress.exists_readExample htokens hlabel hnull hv

end Trace

namespace Replay
variable {s : Settings} {quantile : Double → Double} {files : FileTree} {start finish : Double} {trace text : String}

namespace Course
variable {f : Finished} {text' : String} {wall : Double} {made tabled done : FileTree}

theorem text_eq (h : Course s quantile wall files f text' made tabled done) (htrace : s.trace = .value trace)
    (hread : files.read trace = .ok text) : text' = text := by
  obtain ⟨-, htrace', hread'⟩ := load_eq_ok_iff.mp h.load
  rw [htrace] at htrace'
  obtain rfl := Given.value.inj htrace'
  have hmade := FileTree.read_makeFromEnd f.directory hread
  rw [h.making] at hmade
  exact Except.ok.inj (hread'.symm.trans hmade)

theorem learner_eq_perceptron (h : Course s quantile wall files f text' made tabled done)
    (halgorithm : s.algorithm = .value "perceptron") : f.learner = .perceptron := by
  obtain ⟨hlearner, -, -⟩ := load_eq_ok_iff.mp h.load
  have hdestination := h.destination
  rw [Settings.destination, halgorithm] at hdestination
  obtain ⟨outDirectory, -, hdestination⟩ := exists_of_bind_eq_ok hdestination
  obtain ⟨-, hname⟩ := Prod.mk.inj (Except.ok.inj hdestination)
  rw [← hname, Learner.ofName, if_pos rfl] at hlearner
  exact (Except.ok.inj hlearner).symm

end Course

theorem mistakes_le_of_course {f : Finished} {wall : Double} {made tabled done : FileTree}
    (h : Course s quantile wall files f text made tabled done) (hlearner : f.learner = .perceptron) :
    f.progress.tally.total ≤ f.progress.tally.correct + f.progress.tally.updates +
      overlooked .empty (Trace.examples (Text.lines text.toList)) := by
  have hsound := h.sound
  rw [← h.progress, hlearner] at hsound ⊢
  have hmistakes := mistakes_studyAll (fun e (he : e ∈ Trace.examples (Text.lines text.toList)) =>
    Trace.exists_readExample_of_mem he) Registry.named_empty {} 0 (Nat.le_refl 0)
  rw [Nat.zero_add] at hmistakes
  rw [(Progress.stands_of_sound .perceptron s.skipInvalid hsound).tally, Tally.total_skipMany,
    Tally.correct_skipMany, Tally.updates_skipMany]
  exact hmistakes

/-- A perceptron learns from every mistake but those that it overlooks: an example whose label is not
known yet, with finite values, under a prediction that scores below zero. So the mistakes of a run are at
most its updates and the examples that it overlooked. -/
theorem learns_from_mistakes :
    (∀ (calls : List Call) (tokens label : Datum) (key : Key) (cs : List Coordinate),
      Learner.readExample tokens label = .ok (key, cs) →
      ∃ predicted changed, (Registry.empty.afterAll calls).predictTokens tokens = .ok predicted ∧
        (Learner.perceptron.train (Registry.empty.afterAll calls) tokens label).result = .ok changed ∧
        ((predicted.any fun p => p.datum.equals label) = false →
          changed = !(Registry.empty.afterAll calls).overlooks cs key)) ∧
    ∀ (s : Settings) (quantile : Double → Double) (files : FileTree) (start finish : Double) (trace text : String)
      (summary : Summary),
      s.algorithm = .value "perceptron" → s.trace = .value trace → files.read trace = .ok text →
      (run s start finish files quantile).result = .ok summary →
      summary.tally.total - summary.tally.correct ≤
        summary.tally.updates + overlooked .empty (Trace.examples (Text.lines text.toList)) := by
  refine ⟨fun calls tokens label key cs hread => ?_, ?_⟩
  · obtain ⟨predicted, changed, hpredicted, hresult, hchanged⟩ :=
      exists_changed hread (Registry.named_empty.afterAll calls)
    rw [Registry.overlooksExample, hread] at hchanged
    exact ⟨predicted, changed, hpredicted, hresult, hchanged⟩
  · intro s quantile files start finish trace text summary halgorithm htrace htext hrun
    obtain ⟨f, text', made, tabled, done, hcourse, rfl⟩ := exists_course_iff.mp hrun
    have hmistakes := mistakes_le_of_course hcourse (hcourse.learner_eq_perceptron halgorithm)
    rw [hcourse.text_eq htrace htext] at hmistakes
    show f.progress.tally.total - f.progress.tally.correct ≤ f.progress.tally.updates + _
    omega

/-- Examples of two labels, then one with a label that is not known. -/
def threeLabelTrace : String :=
  "\x7b\"features\": [\"a\"], \"label\": \"A\"\x7d\n\x7b\"features\": [\"b\"], \"label\": \"B\"\x7d\n" ++
    "\x7b\"features\": [\"a:-2\", \"b:-1\"], \"label\": \"C\"\x7d\n"

/-- Settings of a run with a perceptron. -/
def perceptronSettings : Settings := { trace := .value "trace.jsonl", algorithm := .value "perceptron" }

/-- The calls of the first two examples. -/
def twoLabelCalls : List Call :=
  [.train .perceptron (.list [.text "a"]) (.text "A"), .train .perceptron (.list [.text "b"]) (.text "B")]

/-- The tokens of the third example. -/
def unlikelyTokens : Datum := .list [.text "a:-2", .text "b:-1"]

theorem threeLabelTrace_facts :
    ((Registry.empty.afterAll twoLabelCalls).predictTokens unlikelyTokens).toOption.map
        (fun predicted => predicted.any fun p => p.datum.equals (.text "C")) = some false ∧
      (Registry.empty.afterAll twoLabelCalls).overlooksExample unlikelyTokens (.text "C") = true ∧
      (Learner.perceptron.train (Registry.empty.afterAll twoLabelCalls) unlikelyTokens
        (.text "C")).result.toOption = some false ∧
      (run perceptronSettings 0 1 (traceTree threeLabelTrace)).result.toOption.map Summary.tally =
        some ⟨3, 0, 2, 0⟩ := by
  decide +kernel

/-- A mistake without an update, and a run with more mistakes than updates. -/
theorem unchanged_on_mistake :
    ((Registry.empty.afterAll twoLabelCalls).predictTokens unlikelyTokens).toOption.map
        (fun predicted => predicted.any fun p => p.datum.equals (.text "C")) = some false ∧
      (Learner.perceptron.train (Registry.empty.afterAll twoLabelCalls) unlikelyTokens
        (.text "C")).result.toOption = some false ∧
      (run perceptronSettings 0 1 (traceTree threeLabelTrace)).result.toOption.map Summary.tally =
        some ⟨3, 0, 2, 0⟩ :=
  ⟨threeLabelTrace_facts.1, threeLabelTrace_facts.2.2⟩

theorem learns_from_mistakes_threeLabelTrace :
    (Learner.perceptron.train (Registry.empty.afterAll twoLabelCalls) unlikelyTokens (.text "C")).result =
        .ok false ∧
      ∃ summary, (run perceptronSettings 0 1 (traceTree threeLabelTrace)).result = .ok summary ∧
        summary.tally = ⟨3, 0, 2, 0⟩ ∧
        3 ≤ 2 + overlooked .empty (Trace.examples (Text.lines threeLabelTrace.toList)) := by
  obtain ⟨hexample, hcount⟩ := learns_from_mistakes
  obtain ⟨hmistake, hoverlooks, -, htally⟩ := threeLabelTrace_facts
  constructor
  · unfold Registry.overlooksExample at hoverlooks
    split at hoverlooks
    · rename_i key cs hread
      obtain ⟨predicted, changed, hpredicted, hresult, hchanged⟩ := hexample twoLabelCalls _ _ _ _ hread
      rw [hpredicted] at hmistake
      rw [hresult, hchanged (Option.some.inj hmistake), hoverlooks]
      rfl
    · cases hoverlooks
  · cases hrun : (run perceptronSettings 0 1 (traceTree threeLabelTrace)).result with
    | error e =>
      rw [hrun] at htally
      cases htally
    | ok summary =>
      rw [hrun] at htally
      have hle := hcount perceptronSettings Gaussian.quantile (traceTree threeLabelTrace) 0 1 "trace.jsonl"
        threeLabelTrace summary
        rfl rfl (ready_traceTree threeLabelTrace).reading hrun
      rw [Option.some.inj htally] at hle
      dsimp only [Nat.sub_zero] at hle
      exact ⟨summary, rfl, Option.some.inj htally, hle⟩

end Replay

end OnlineLearning
