import OnlineLearning.Proofs.Feature.RoundTrip
import OnlineLearning.Proofs.Json.RoundTrip
import OnlineLearning.Proofs.Replay.Origin
import OnlineLearning.Proofs.Replay.Table
import OnlineLearning.Synthetic.Trace

/-!
# Lines of examples

A synthetic trace has one line for each of its examples, and the line is read as the example that it was
written from, whatever the names in it (`load_traceText`). If the tokens of the examples are features, every line
is learned (`accepted_traceText`), what is learned can be written (`plain_trained`), and so a run over the trace ends
well (`exists_course`).
-/

namespace OnlineLearning.Synthetic

/-- An example whose tokens are features. -/
def Example.IsReadable (e : Example) : Prop := ∀ token ∈ e.tokens, ∃ f, Feature.ofText token = .ok f

namespace Example

/-- The tokens and the label of an example as they are read from a trace. -/
def entry (e : Example) : List Datum × Datum := (e.tokens.map fun token : String => .text token, .text e.label)

/-- The line of an example without its end. -/
def body (e : Example) : List Char :=
  Json.object [("features", Json.array (e.tokens.map Json.text)), ("label", Json.text e.label)]

/-- An example as an object. -/
def datum (e : Example) : Datum := .dict [(.text "features", .list e.entry.1), (.text "label", e.entry.2)]

theorem datum_eq (e : Example) :
    e.datum = .ofEntries [(.text "features", .list e.entry.1), (.text "label", e.entry.2)] := rfl

theorem written_body (e : Example) : Json.Written e.body e.datum := by
  have htokens : Json.Written (Json.array (e.tokens.map Json.text)) (.list e.entry.1) := by
    have hitems := Json.written_array (e.tokens.map fun t => (Json.text t, Datum.text t)) fun item hitem => by
      obtain ⟨t, -, rfl⟩ := List.mem_map.mp hitem
      exact Json.written_text t
    rw [List.map_map, List.map_map] at hitems
    exact hitems
  rw [datum_eq]
  exact Json.written_object [("features", _, _), ("label", _, _)] (List.cons_ne_nil _ _)
    (List.forall_mem_cons.mpr ⟨htokens, List.forall_mem_singleton.mpr (Json.written_text e.label)⟩)

theorem unbroken_body (e : Example) : Text.Unbroken e.body := by
  refine Json.unbroken_object (List.forall_mem_cons.mpr ⟨Json.unbroken_array fun v hv => ?_, ?_⟩)
  · obtain ⟨t, -, rfl⟩ := List.mem_map.mp hv
    exact Json.unbroken_text t
  · exact List.forall_mem_singleton.mpr (Json.unbroken_text e.label)

theorem readLine_line (e : Example) (n : Nat) : Trace.readLine n e.line = .ok (.labelled e.entry.1 e.entry.2) := by
  have hread : Json.read e.line = .ok e.datum := Json.read_of_written e.written_body
  have hblank : e.line.all Text.isBlank = false := rfl
  rw [Trace.readLine, hblank, hread]
  rfl

theorem example?_line (e : Example) : Trace.example? e.line = some e.entry := by
  rw [Trace.example?, readLine_line]

theorem verdict_line {e : Example} (h : e.IsReadable) : Trace.verdict e.line = .learned := by
  have hread : Json.read e.line = .ok e.datum := Json.read_of_written e.written_body
  have hblank : e.line.all Text.isBlank = false := rfl
  have htokens : e.entry.1.any Feature.isMalformed = false := by
    rw [List.any_eq_false]
    intro token htoken
    obtain ⟨t, ht, rfl⟩ := List.mem_map.mp htoken
    obtain ⟨f, hf⟩ := h t ht
    rw [Feature.isMalformed_eq_false (Feature.ofToken_text_eq_ok_iff.mpr hf)]
    exact Bool.false_ne_true
  have hverdict : Trace.exampleVerdict e.entry.1 e.entry.2 = .learned := by
    rw [Trace.exampleVerdict, htokens]
    rfl
  rw [Trace.verdict, hblank, hread]
  exact hverdict

end Example

variable {es : List Example}

theorem lines_traceText (es : List Example) : Text.lines (traceText es).toList = es.map Example.line := by
  have hbodies : es.flatMap Example.line = (es.map Example.body).flatMap fun line => line ++ ['\n'] := by
    rw [List.flatMap_map]
    rfl
  rw [traceText, String.toList_ofList, hbodies, Text.lines_flatMap, List.map_map]
  · rfl
  · intro line hline
    obtain ⟨e, -, rfl⟩ := List.mem_map.mp hline
    exact e.unbroken_body

theorem foldl_takeLine (skipMalformed : Bool) (es : List Example) (n : Nat) {l : Trace.Loaded} (hl : l.fault? = none) :
    ((es.map Example.line).zipIdx n).foldl (Trace.Loaded.takeLine skipMalformed) l =
      { l with examples := l.examples ++ es.map Example.entry } := by
  induction es generalizing n l with
  | nil =>
    show l = { l with examples := l.examples ++ [] }
    rw [List.append_nil]
  | cons e es ih =>
    have htake : l.takeLine skipMalformed (e.line, n) = { l with examples := l.examples ++ [e.entry] } := by
      rw [Trace.Loaded.takeLine_eq skipMalformed n hl, e.readLine_line]
    rw [List.map_cons, List.zipIdx_cons, List.foldl_cons, htake]
    refine (ih (n + 1) (l := { l with examples := l.examples ++ [e.entry] }) hl).trans ?_
    rw [List.map_cons, List.append_assoc, List.singleton_append]

/-- Loading a synthetic trace gives its examples, in order, and nothing else: no line is dropped or skipped. -/
theorem load_traceText (skipMalformed : Bool) (es : List Example) :
    Trace.load skipMalformed (traceText es) = { examples := es.map Example.entry } := by
  rw [Trace.load, Trace.numberedLines, lines_traceText, foldl_takeLine skipMalformed es 1 rfl]
  rfl

/-- The names of labels and keys are parts of the texts of examples, which have characters only. -/
theorem plain_trained (learner : Learner) (es : List Example) : (learner.trained (es.map Example.entry)).Plain := by
  have hmade : (learner.trained (es.map Example.entry)).MadeOf (fun l => l.datum.display.Plain)
      fun k => k.datum.display.Plain := by
    refine .trained learner fun entry hentry key cs hread => ?_
    obtain ⟨e, -, rfl⟩ := List.mem_map.mp hentry
    obtain ⟨-, hkey, fs, hfs, hcs⟩ := Learner.exists_of_readExample hread
    refine ⟨?_, fun c hc => ?_⟩
    · rw [Datum.toKey_eq_ok_iff.mp hkey]
      exact CodePoints.plain_ofChars _
    · obtain ⟨f, hf, hdatum, -⟩ := Feature.exists_of_mem_coordinates hcs hc
      obtain ⟨t, ht, htoken⟩ := Feature.exists_of_mem_ofTokenList hfs hf
      obtain ⟨token, -, rfl⟩ := List.mem_map.mp ht
      obtain ⟨name, hname, -, hstarts⟩ := Feature.exists_name_of_ofText (Feature.ofToken_text_eq_ok_iff.mp htoken)
      rw [hdatum, hname]
      exact fun p hp => CodePoints.plain_ofChars _ p (hstarts.subset hp)
  intro p hp
  obtain ⟨hlabel, hkey⟩ := Registry.mem_places hp
  exact List.forall_mem_cons.mpr ⟨hmade.labels _ hlabel, List.forall_mem_singleton.mpr (hmade.keys _ _ hkey)⟩

section
variable (hes : ∀ e ∈ es, e.IsReadable)
include hes

theorem verdict_of_mem_lines : ∀ line ∈ Text.lines (traceText es).toList, Trace.verdict line = .learned := by
  rw [lines_traceText]
  intro line hline
  obtain ⟨e, he, rfl⟩ := List.mem_map.mp hline
  exact Example.verdict_line (hes e he)

theorem examples_traceText : Trace.examples (Text.lines (traceText es).toList) = es.map Example.entry := by
  rw [lines_traceText]
  induction es with
  | nil => rfl
  | cons e es ih =>
    obtain ⟨he, hes⟩ := List.forall_mem_cons.mp hes
    rw [List.map_cons, Trace.examples_cons_of_learned (Example.verdict_line he) e.example?_line, ih hes, List.map_cons]

theorem fault?_ofTrace (learner : Learner) (skipInvalid : Bool) :
    (Replay.Progress.ofTrace learner skipInvalid (traceText es)).fault? = none ∧
      (Replay.Progress.ofTrace learner skipInvalid (traceText es)).tally.skipped = 0 := by
  have hlearned := verdict_of_mem_lines hes
  have hends : ∀ line ∈ Text.lines (traceText es).toList, Trace.verdict line ≠ .ends := fun line hline =>
    hlearned line hline ▸ nofun
  have hskipped : ∀ line ∈ Text.lines (traceText es).toList, Trace.verdict line ≠ .skipped := fun line hline =>
    hlearned line hline ▸ nofun
  have hstands := Replay.Progress.ofTrace_stands learner skipInvalid hends (.inr hskipped)
  have hcount : Replay.count .skipped (traceText es) = 0 :=
    List.countP_eq_zero.mpr fun line hline => by simpa using hskipped line hline
  refine ⟨hstands.sound, ?_⟩
  rw [hstands.tally, Replay.Tally.skipped_skipMany, hcount, (Replay.total_studyAll _ _ _).2]

theorem accepted_traceText (skipInvalid : Bool) :
    Trace.accepted skipInvalid (traceText es) = es.map Example.entry := by
  obtain ⟨hsound, -⟩ := fault?_ofTrace hes .perceptron skipInvalid
  rw [Replay.Progress.accepted_eq hsound, examples_traceText hes]

theorem exists_course {s : Replay.Settings} {quantile : Double → Double} {files : FileTree}
    {directory algorithm trace : String} {learner : Learner}
    (hready : Replay.Ready s files quantile directory algorithm trace (traceText es) learner) (wall : Double) :
    ∃ tabled done, Replay.Course s quantile wall files
      ⟨directory, algorithm, trace, learner, Replay.Progress.ofTrace learner s.skipInvalid (traceText es)⟩
      (traceText es) (files.makeFromEnd directory).1 tabled done := by
  obtain ⟨hsound, -⟩ := fault?_ofTrace hes learner s.skipInvalid
  refine hready.exists_course wall hsound ?_
  rw [examples_traceText hes]
  exact plain_trained learner es

end

end OnlineLearning.Synthetic
