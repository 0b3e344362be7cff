import Mathlib.Data.List.Forall2
import OnlineLearning.Proofs.Datum.Display
import OnlineLearning.Proofs.Model.Places
import OnlineLearning.Proofs.Replay.Origin
import OnlineLearning.Proofs.Synthetic.Lines

/-!
# What the table of weights tells

The table of weights of a run is read as its header and one record for each place of the model: the label
and the key as they are displayed, and two numbers that are read as the weight (`records_of_run`). A record
shows no kinds, so a text may be displayed as a number is. But for that, records tell their places apart
(`told_apart_of_run`).
-/

namespace OnlineLearning

namespace Registry

/-- Whether the labels of two places, or the keys, are a text in one and no text in the other. -/
def Unlike (p q : Key × Key) : Prop :=
  p.1.datum.isText ≠ q.1.datum.isText ∨ p.2.datum.isText ≠ q.2.datum.isText

/-- The fields of a place: its label and its key, and two texts that are read as its weight. -/
def Recorded (r : Registry) (p : Key × Key) (fields : List CodePoints) : Prop :=
  ∃ mean covariance, fields = shown p ++ [mean, covariance] ∧
    Datum.toFloat (.text mean) = .ok (r.weight p.1 p.2).mean ∧
    Datum.toFloat (.text covariance) = .ok (r.weight p.1 p.2).covariance

theorem toFloat_text (x : Double) : Datum.toFloat (.text (.ofChars x.text)) = .ok x := by
  rw [Datum.toFloat, CodePoints.chars?_ofChars, Option.bind_some, Number.read?_text (by decide)]

variable {r : Registry}

theorem recorded_modelRecord {p : Key × Key} (hlabel : p.1.datum.isNull = false) (hkey : p.2.datum.isNull = false) :
    r.Recorded p (Replay.modelRecord (r.rowAt p)) := by
  refine ⟨.ofChars (r.weight p.1 p.2).mean.text, .ofChars (r.weight p.1 p.2).covariance.text, ?_, toFloat_text _,
    toFloat_text _⟩
  show [Replay.modelRecord.cell p.1.datum, Replay.modelRecord.cell p.2.datum, _, _] = _
  rw [Replay.cell_eq hlabel, Replay.cell_eq hkey]
  rfl

theorem shown_of_recorded {ps : List (Key × Key)} {records : List (List CodePoints)}
    (h : List.Forall₂ r.Recorded ps records) : ps.map shown = records.map (List.take 2) := by
  induction h with
  | nil => rfl
  | cons hfields _ ih =>
    obtain ⟨mean, covariance, rfl, -, -⟩ := hfields
    rw [List.map_cons, List.map_cons, ih]
    rfl

/-- Places that are shown alike are unlike, if all labels and keys are scalars. -/
theorem unlike_of_shown (hr : r.MadeOf (fun l => Json.Scalar l.datum) fun k => Json.Scalar k.datum) :
    r.places.Pairwise fun p q => shown p = shown q → Unlike p q := by
  refine r.distinct_places.imp_of_mem fun {p q} hp hq hdistinct hshown => ?_
  by_contra hunlike
  simp only [Unlike, not_or, not_not] at hunlike
  obtain ⟨hlabel, hkey⟩ := hunlike
  obtain ⟨hlabels, hkeys⟩ := List.cons.inj hshown
  have hlabelEq := (hr.labels _ (mem_places hp).1).eq_of_display (hr.labels _ (mem_places hq).1) hlabel hlabels
  have hkeyEq := (hr.keys _ _ (mem_places hp).2).eq_of_display (hr.keys _ _ (mem_places hq).2) hkey
    (List.cons.inj hkeys).1
  rcases hdistinct with h | h
  · rw [Key.same_of_datum_eq hlabelEq] at h
    cases h
  · rw [Key.same_of_datum_eq hkeyEq] at h
    cases h

end Registry

namespace Replay
variable {s : Settings} {quantile : Double → Double} {files : FileTree} {start finish : Double}

theorem Course.exists_records {wall : Double} {f : Finished} {text : String} {made tabled done : FileTree}
    (h : Course s quantile wall files f text made tabled done) :
    let r := f.learner.trained (Trace.accepted s.skipInvalid text)
    ∃ records, Csv.records (modelTable f.progress.registry.rows).1 = modelHeader :: records ∧
      List.Forall₂ r.Recorded r.places records ∧
      Csv.read (modelTable f.progress.registry.rows).1 =
        if r.Within Csv.fieldLimit then .ok (modelHeader :: records) else .error ⟨Csv.fieldLimit⟩ := by
  intro r
  have hscalars := h.madeOf_scalars
  have hnull : ∀ p ∈ r.places, p.1.datum.isNull = false ∧ p.2.datum.isNull = false := fun p hp =>
    ⟨(hscalars.labels _ (Registry.mem_places hp).1).isNull, (hscalars.keys _ _ (Registry.mem_places hp).2).isNull⟩
  obtain ⟨-, -, -, -, -, -, -, hrecords⟩ := h.counts
  refine ⟨_, hrecords, ?_, ?_⟩
  · rw [Registry.rows_eq, List.map_map, List.forall₂_map_right_iff, List.forall₂_same]
    exact fun p hp => Registry.recorded_modelRecord (hnull p hp).1 (hnull p hp).2
  · rw [Csv.read_eq, hrecords]
    simp only [within_modelTable_iff hnull, r]

/-- The table of weights of a run that ends well has its header and then one record of four fields for each
stored weight, in order of insertion, whatever its label and its key look like: both as they are displayed,
and the two numbers of the weight, to be read again as they were. A reader with its limit on the length of fields
reads them all, unless a label or a key is displayed beyond the limit. -/
theorem records_of_run {summary : Summary} (hrun : (run s start finish files quantile).result = .ok summary) :
    ∃ directory algorithm learner trace text model r records, s.destination = .ok (directory, algorithm) ∧
      s.load algorithm (files.makeFromEnd directory).1 quantile = .ok (learner, trace, text) ∧
      r = learner.trained (Trace.accepted s.skipInvalid text) ∧
      (run s start finish files quantile).files.read (modelPath directory) = .ok model ∧
      Csv.records model = modelHeader :: records ∧ List.Forall₂ r.Recorded r.places records ∧
      Csv.read model =
        if r.Within Csv.fieldLimit then .ok (modelHeader :: records) else .error ⟨Csv.fieldLimit⟩ := by
  obtain ⟨f, text, made, tabled, done, hcourse, -⟩ := exists_course_iff.mp hrun
  have hmade : (files.makeFromEnd f.directory).1 = made := by rw [hcourse.making]
  obtain ⟨records, hrecords, hrecorded, hread⟩ := hcourse.exists_records
  refine ⟨f.directory, f.algorithm, f.learner, f.trace, text, (modelTable f.progress.registry.rows).1, _, records,
    hcourse.destination, hmade.symm ▸ hcourse.load, rfl, ?_, hrecords, hrecorded, hread⟩
  rw [hcourse.run_eq.2]
  exact hcourse.read_model

/-- A label with a comma, quotes and line breaks, and keys with blanks and a line break. -/
def awkwardTrace : String :=
  "\x7b\"features\": [\" a b\", \"c\\r\\nd:2.5\", 1e23], \"label\": \"x,\\\"y\\\"\\n\"\x7d\n"

/-- What the records of the trace show. -/
def awkwardRecords : List (List CodePoints) :=
  [["x,\"y\"\n", " a b"], ["x,\"y\"\n", "c\r\nd"], ["x,\"y\"\n", "1e+23"]]

theorem awkwardTrace_facts : (∀ line ∈ Text.lines awkwardTrace.toList, Trace.verdict line ≠ .ends) ∧
    (Learner.trained (.confidenceWeighted 1) (Trace.examples (Text.lines awkwardTrace.toList))).Plain ∧
    (Learner.trained (.confidenceWeighted 1) (Trace.accepted true awkwardTrace)).Within Csv.fieldLimit ∧
    (Learner.trained (.confidenceWeighted 1) (Trace.accepted true awkwardTrace)).places.map Registry.shown =
      awkwardRecords := by
  decide +kernel

theorem records_of_run_awkwardTrace : ∃ model records,
    (run skippingSettings 0 1 (traceTree awkwardTrace)).files.read (modelPath "results/cw") = .ok model ∧
      Csv.read model = .ok (modelHeader :: records) ∧ records.map (List.take 2) = awkwardRecords := by
  obtain ⟨hends, hplain, hwithin, hshown⟩ := awkwardTrace_facts
  have hready := ready_traceTree awkwardTrace
  obtain ⟨summary, hrun⟩ := hready.exists_result rfl hends hplain 0 1
  obtain ⟨directory, algorithm, learner, trace, text, model, r, records, hdestination, hload, rfl, hmodel, -,
    hrecorded, hread⟩ := records_of_run hrun
  obtain ⟨rfl, rfl, rfl⟩ := hready.eq_of_load hdestination hload
  refine ⟨model, records, hmodel, hread.trans (if_pos hwithin), ?_⟩
  rw [← Registry.shown_of_recorded hrecorded]
  exact hshown

theorem margin_empty (withVariance : Bool) (cs : List Coordinate) (label : Key) :
    Registry.empty.margin withVariance cs label =
      ⟨(Registry.measure withVariance {} cs).1, 2 * (Registry.measure withVariance {} cs).2, none⟩ := rfl

/-- A first example with one word is learned, whatever its label. -/
theorem fst_learn_empty (label : Key) :
    ((Learner.confidenceWeighted 1).learn .empty [⟨Key.ofText "a", 1⟩] label).1 = true := by
  have hpos : Number.less 0 (Step.size (Registry.measure true {} [⟨Key.ofText "a", 1⟩]).1
      (2 * (Registry.measure true {} [⟨Key.ofText "a", 1⟩]).2) (Number.narrow 1)).1 = true := by decide +kernel
  unfold Learner.learn
  dsimp only
  rw [margin_empty]
  dsimp only
  rw [if_pos hpos]

/-- An example with one word and some label. -/
def labelledWord (label : String) : Synthetic.Example := ⟨["a"], label⟩

theorem places_trained_labelledWord (label : String) :
    ((Learner.confidenceWeighted 1).trained [(labelledWord label).entry]).places =
      [(Key.ofText label, Key.ofText "a")] := by
  have hread : Learner.readExample (.list [.text "a"]) (.text label) =
      .ok (Key.ofText label, [⟨Key.ofText "a", 1⟩]) := rfl
  have htaught := Registry.taught_learn (fst_learn_empty (Key.ofText label))
  rw [← Learner.registry_train _ hread] at htaught
  have hlabels : _ = [Key.ofText label] := htaught.labels
  have hkeys := htaught.keys (Key.ofText label)
  rw [Registry.touches, Key.same_self] at hkeys
  have hkeys : Registry.keysOf _ (Key.ofText label) = [Key.ofText "a"] := hkeys
  show Registry.places ((Learner.confidenceWeighted 1).train .empty (.list [.text "a"]) (.text label)).registry = _
  rw [Registry.places, hlabels, List.flatMap_singleton, hkeys]
  rfl

theorem not_within_labelledWord {label : String} (hlong : Csv.fieldLimit < label.toList.length) :
    ¬((Learner.confidenceWeighted 1).trained [(labelledWord label).entry]).Within Csv.fieldLimit := by
  intro hwithin
  rw [Registry.Within, places_trained_labelledWord] at hwithin
  have hle := hwithin _ (List.mem_singleton_self _) label (List.mem_cons_self ..)
  rw [CodePoints.ofChars, List.length_map] at hle
  exact Nat.not_lt.mpr hle hlong

/-- A run over an example whose label is longer than the limit ends well, and the reader stops at the label. -/
theorem exists_unread_of_long {label : String} (hlong : Csv.fieldLimit < label.toList.length) :
    let files := traceTree (Synthetic.traceText [labelledWord label])
    (∃ summary, (run skippingSettings 0 1 files).result = .ok summary) ∧ ∃ model,
      (run skippingSettings 0 1 files).files.read (modelPath "results/cw") = .ok model ∧
      Csv.read model = .error ⟨Csv.fieldLimit⟩ := by
  have hreadable : ∀ e ∈ [labelledWord label], e.IsReadable :=
    List.forall_mem_singleton.mpr (List.forall_mem_singleton.mpr ⟨_, rfl⟩)
  obtain ⟨tabled, done, hcourse⟩ := Synthetic.exists_course hreadable (ready_traceTree _) (1 - 0)
  obtain ⟨records, -, -, hread⟩ := hcourse.exists_records
  refine ⟨⟨_, hcourse.run_eq.1⟩, _, ?_, hread.trans (if_neg ?_)⟩
  · rw [hcourse.run_eq.2]
    exact hcourse.read_model
  · rw [Synthetic.accepted_traceText hreadable]
    exact not_within_labelledWord hlong

/-- A label of one character more than the limit. -/
def longLabel : String := String.ofList (List.replicate (Csv.fieldLimit + 1) 'x')

theorem run_longLabel :
    (∃ summary, (run skippingSettings 0 1 (traceTree (Synthetic.traceText [labelledWord longLabel]))).result =
      .ok summary) ∧ ∃ model,
      (run skippingSettings 0 1 (traceTree (Synthetic.traceText [labelledWord longLabel]))).files.read
        (modelPath "results/cw") = .ok model ∧
      Csv.read model = .error ⟨Csv.fieldLimit⟩ := by
  refine exists_unread_of_long ?_
  rw [longLabel, String.toList_ofList, List.length_replicate]
  exact Nat.lt_succ_self _

/-! ### Records that look alike -/

/-- Two records of a run with the same label and the same key in them are of stored weights whose labels, or
whose keys, are a text in one and a number or a truth value in the other. So no two records look alike if the
labels of the model are all texts or none of them is, and so are the keys. -/
theorem told_apart_of_run {summary : Summary} (hrun : (run s start finish files quantile).result = .ok summary) :
    ∃ directory algorithm learner trace text model r records, s.destination = .ok (directory, algorithm) ∧
      s.load algorithm (files.makeFromEnd directory).1 quantile = .ok (learner, trace, text) ∧
      r = learner.trained (Trace.accepted s.skipInvalid text) ∧
      (run s start finish files quantile).files.read (modelPath directory) = .ok model ∧
      Csv.records model = modelHeader :: records ∧
      records.map (List.take 2) = r.places.map Registry.shown ∧
      (r.places.Pairwise fun p q => Registry.shown p = Registry.shown q → Registry.Unlike p q) ∧
      ((∀ p ∈ r.places, ∀ q ∈ r.places, ¬Registry.Unlike p q) → (records.map (List.take 2)).Nodup) := by
  obtain ⟨f, text, made, tabled, done, hcourse, -⟩ := exists_course_iff.mp hrun
  have hmade : (files.makeFromEnd f.directory).1 = made := by rw [hcourse.making]
  obtain ⟨records, hread, hrecords, -⟩ := hcourse.exists_records
  have hunlike := Registry.unlike_of_shown hcourse.madeOf_scalars
  have hshown := (Registry.shown_of_recorded hrecords).symm
  refine ⟨f.directory, f.algorithm, f.learner, f.trace, text, (modelTable f.progress.registry.rows).1, _, records,
    hcourse.destination, hmade.symm ▸ hcourse.load, rfl, ?_, hread, hshown, hunlike, fun hlike => ?_⟩
  · rw [hcourse.run_eq.2]
    exact hcourse.read_model
  · rw [hshown, List.Nodup, List.pairwise_map]
    exact hunlike.imp_of_mem fun {p q} hp hq h heq => hlike p hp q hq (h heq)

/-- A label that is a number, and one that is the text of the number. -/
def numberTrace : String :=
  "\x7b\"features\": [\"a\"], \"label\": 1\x7d\n\x7b\"features\": [\"a\"], \"label\": \"1\"\x7d\n"

/-- What both records of the trace show. -/
def numberRecord : List CodePoints := ["1", "a"]

theorem numberTrace_facts : (∀ line ∈ Text.lines numberTrace.toList, Trace.verdict line ≠ .ends) ∧
    (Learner.trained (.confidenceWeighted 1) (Trace.examples (Text.lines numberTrace.toList))).Plain ∧
    (Learner.trained (.confidenceWeighted 1) (Trace.accepted true numberTrace)).places.map Registry.shown =
      [numberRecord, numberRecord] := by
  decide +kernel

theorem told_apart_of_run_numberTrace : ∃ model r records,
    (run skippingSettings 0 1 (traceTree numberTrace)).files.read (modelPath "results/cw") = .ok model ∧
      Csv.records model = modelHeader :: records ∧
      records.map (List.take 2) = [numberRecord, numberRecord] ∧ (Registry.places r).Pairwise Registry.Unlike := by
  have hready := ready_traceTree numberTrace
  obtain ⟨summary, hrun⟩ := hready.exists_result rfl numberTrace_facts.1 numberTrace_facts.2.1 0 1
  obtain ⟨directory, algorithm, learner, trace, text, model, r, records, hdestination, hload, hr, hmodel, hread,
    hshown, hunlike, -⟩ := told_apart_of_run hrun
  obtain ⟨rfl, rfl, rfl⟩ := hready.eq_of_load hdestination hload
  have hplaces : r.places.map Registry.shown = [numberRecord, numberRecord] := by
    rw [hr]
    exact numberTrace_facts.2.2
  have hone : ∀ p ∈ r.places, Registry.shown p = numberRecord := by
    intro p hp
    have hmem := List.mem_map_of_mem (f := Registry.shown) hp
    rw [hplaces] at hmem
    simpa using hmem
  exact ⟨model, r, records, hmodel, hread, hshown.trans hplaces,
    hunlike.imp_of_mem fun hp hq h => h ((hone _ hp).trans (hone _ hq).symm)⟩

/-- Both labels of `numberTrace` get a record for their one key, and the records have the same label and the
same key in them. -/
theorem looks_alike_numberTrace :
    (∃ summary, (run skippingSettings 0 1 (traceTree numberTrace)).result = .ok summary) ∧ ∃ model records,
      (run skippingSettings 0 1 (traceTree numberTrace)).files.read (modelPath "results/cw") = .ok model ∧
      Csv.records model = modelHeader :: records ∧
      records.map (List.take 2) = [numberRecord, numberRecord] := by
  have hstands := Progress.ofTrace_stands (.confidenceWeighted 1) true numberTrace_facts.1 (.inl rfl)
  obtain ⟨tabled, done, hcourse⟩ := (ready_traceTree numberTrace).exists_course (1 - 0) hstands.sound
    numberTrace_facts.2.1
  obtain ⟨records, hread, hrecords, -⟩ := hcourse.exists_records
  refine ⟨⟨_, hcourse.run_eq.1⟩, _, records, ?_, hread, ?_⟩
  · rw [hcourse.run_eq.2]
    exact hcourse.read_model
  · rw [← Registry.shown_of_recorded hrecords]
    exact numberTrace_facts.2.2

end Replay

end OnlineLearning
