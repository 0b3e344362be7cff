import OnlineLearning.Proofs.Compare.ReadBack

/-!
# Runs and the comparison agree on figures

What a comparison reads from the summary of a run is what the run has counted: its algorithm, its trace but for
the blanks around the path, its counts, and the numbers that two decimal places name (`record_of_run`). The part
of right predictions is at most one, and so always has decimal places; the times of a run may have none.
-/

namespace OnlineLearning

namespace Learner

theorem name_of_ofName {name : String} {phi eta : Datum} {quantile : Double → Double} {learner : Learner}
    (h : ofName name phi eta quantile = .ok learner) : name = "perceptron" ∨ name = "cw" := by
  unfold ofName at h
  split at h
  · rename_i hname
    exact .inl hname
  · split at h
    · rename_i hname
      exact .inr hname
    · cases h

end Learner

namespace Compare

theorem toDouble_fixed (x : Double) : toDouble (x.fixed 2) = x.roundTo 2 := by
  rw [toDouble, Number.read?_fixed (by decide)]
  rfl

end Compare

namespace Replay

namespace Summary
variable {s : Summary}

/-! ### Figures with decimal places -/

theorem magnitude_accuracy_le (h : s.tally.correct ≤ s.tally.total) : s.accuracy.magnitude ≤ Format.double.one := by
  unfold accuracy
  split
  · show Format.double.units 0 ≤ _
    rw [Format.units_zero]
    exact Nat.zero_le _
  · rename_i htotal
    have hround : s.tally.correct * Format.double.one ≤ Format.double.units Format.double.rankOne * s.tally.total := by
      rw [Format.units_rankOne, Nat.mul_comm]
      exact Nat.mul_le_mul_left _ h
    have hle := Number.magnitude_round_le (s := false) (Nat.pos_of_ne_zero htotal) hround
    rwa [Format.units_rankOne] at hle

theorem isFinite_percent (h : s.tally.correct ≤ s.tally.total) : (s.accuracy * 100).isFinite = true := by
  obtain ⟨k, hk⟩ : ∃ k, k = Format.double.scale + 7 := ⟨_, rfl⟩
  obtain ⟨htop, hhundred⟩ : 2 ^ k < Format.double.units Format.double.top ∧
      (100 : Double).isFinite = true ∧ (100 : Double).magnitude ≤ 2 ^ k := by
    rw [hk]
    decide +kernel
  have haccuracy : s.accuracy.magnitude ≤ 2 ^ Format.double.scale := by
    rw [← Format.one_eq_two_pow]
    exact magnitude_accuracy_le h
  have hfinite : s.accuracy.isFinite = true := by
    rw [Number.isFinite_iff_magnitude]
    exact Nat.lt_of_le_of_lt (Nat.le_trans haccuracy (Nat.pow_le_pow_right (by decide) (by omega))) htop
  rw [Number.isFinite_iff_magnitude]
  exact Nat.lt_of_le_of_lt (Number.magnitude_mul_le hfinite hhundred.1 haccuracy hhundred.2 (by omega)) htop

theorem record_accuracy (h : s.tally.correct ≤ s.tally.total) :
    s.record.accuracy = some ((s.accuracy * 100).roundTo 2) := by
  obtain ⟨xs, hxs⟩ := Compare.exists_floats_eq "Accuracy: ".toList ['%'] (Text.forall_mem_of_all (by decide))
    (Compare.isFigure_fixed (isFinite_percent h)) (Text.forall_mem_option_of_all (by decide))
  rw [accuracy_record, Number.percent, hxs, Compare.toDouble_fixed, List.head?_cons]

theorem pair?_timeLine (hrate : s.rate.isFinite = true) (hwall : s.wall.isFinite = true) :
    Compare.Record.pair? (Compare.floats s.timeLine) = some (s.rate.roundTo 2, s.wall.roundTo 2) := by
  obtain ⟨xs, hxs⟩ := Compare.exists_floats_eq_pair "Examples/s: ".toList " | Wall Time: ".toList " s".toList
    (Text.forall_mem_of_all (by decide)) (Compare.isFigure_fixed hrate) (Text.forall_mem_of_all (by decide)) (by decide)
    (Compare.isFigure_fixed hwall) (Text.forall_mem_option_of_all (by decide))
  have hline : s.timeLine = "Examples/s: ".toList ++ (s.rate.fixed 2 ++
      (" | Wall Time: ".toList ++ (s.wall.fixed 2 ++ " s".toList))) := by
    unfold timeLine
    simp only [List.append_assoc]
  rw [hline, hxs, Compare.toDouble_fixed, Compare.toDouble_fixed]
  rfl

end Summary

/-! ### Runs -/

variable {s : Settings} {quantile : Double → Double} {files : FileTree} {start finish : Double} {trace : String}
  {summary : Summary}

namespace Course
variable {f : Finished} {text : String} {made tabled done : FileTree}

theorem read_summary (h : Course s quantile (finish - start) files f text made tabled done) :
    done.read (summaryPath f.directory) = .ok (f.summary (finish - start)).text :=
  FileTree.read_write h.summary

theorem algorithm_cases {wall : Double} (h : Course s quantile wall files f text made tabled done) :
    f.algorithm = "perceptron" ∨ f.algorithm = "cw" :=
  Learner.name_of_ofName (load_eq_ok_iff.mp h.load).1

theorem trimmed_algorithm {wall : Double} (h : Course s quantile wall files f text made tabled done) :
    Text.Unbroken f.algorithm.toList ∧ Text.trimmed f.algorithm = f.algorithm := by
  rcases h.algorithm_cases with halgorithm | halgorithm
  · rw [halgorithm]
    exact ⟨⟨by decide, by decide⟩, by decide⟩
  · rw [halgorithm]
    exact ⟨⟨by decide, by decide⟩, by decide⟩

theorem trace_eq {wall : Double} (h : Course s quantile wall files f text made tabled done)
    (htrace : s.trace = .value trace) : f.trace = trace := by
  obtain ⟨-, htrace', -⟩ := load_eq_ok_iff.mp h.load
  exact Given.value.inj (htrace'.symm.trans htrace)

end Course

/-- What a comparison reads from the summary that a run has written. -/
theorem exists_record (hrun : (run s start finish files quantile).result = .ok summary)
    (htrace : s.trace = .value trace) (hbreaks : Text.Unbroken trace.toList) (hprintable : summary.Printable) : ∃ directory algorithm text,
      s.destination = .ok (directory, algorithm) ∧ summary.algorithm = algorithm ∧
      Text.trimmed summary.algorithm = algorithm ∧ summary.trace = trace ∧
      summary.wall = finish - start ∧ summary.tally.correct ≤ summary.tally.total ∧
      (run s start finish files quantile).files.read (summaryPath directory) = .ok text ∧
      Compare.Record.ofText text = .ok summary.record := by
  obtain ⟨f, text, made, tabled, done, hcourse, rfl⟩ := exists_course_iff.mp hrun
  obtain ⟨halgorithm, htrimmed⟩ := hcourse.trimmed_algorithm
  have htrace' := hcourse.trace_eq htrace
  obtain ⟨-, -, hcorrect, -⟩ := hcourse.counts
  have hread := hcourse.read_summary
  rw [← hcourse.run_eq.2] at hread
  rw [← htrace'] at hbreaks
  exact ⟨f.directory, f.algorithm, _, hcourse.destination, rfl, htrimmed, htrace', rfl, hcorrect, hread,
    Summary.ofText_text halgorithm hbreaks hprintable⟩

/-- A run and the comparison agree on its figures: what is read from the summary are the algorithm, the trace
without the blanks around its path, and every count as it was. The accuracy is the part of right predictions in
percent, the wall time is what the clock says, and the rate is of examples for each second of it, where time has
passed; they are the numbers that their texts with two decimal places name. -/
theorem record_of_run {accuracy rate wall : Double}
    (hrun : (run s start finish files quantile).result = .ok summary) (htrace : s.trace = .value trace)
    (hbreaks : Text.Unbroken trace.toList)
    (haccuracy : accuracy =
      if summary.tally.total = 0 then 0 else .ofRatio summary.tally.correct summary.tally.total)
    (hwall : wall = finish - start)
    (hrate : rate = if Number.less 0 wall then Number.ofInt summary.tally.total / wall else 0)
    (hfinite : rate.isFinite = true ∧ wall.isFinite = true) (hprintable : summary.Printable) :
    ∃ directory algorithm text record percent perSecond seconds, s.destination = .ok (directory, algorithm) ∧
      (run s start finish files quantile).files.read (summaryPath directory) = .ok text ∧
      Compare.Record.ofText text = .ok record ∧
      record.algorithm = some algorithm ∧ record.trace = some (Text.trimmed trace) ∧
      record.total = some summary.tally.total ∧ record.skipped = some summary.tally.skipped ∧
      record.mistakes = some (summary.tally.total - summary.tally.correct) ∧
      record.updates = some summary.tally.updates ∧ record.labels = some summary.labels ∧
      record.weights = some summary.weights ∧
      record.accuracy = some percent ∧ Number.read? ((accuracy * 100).fixed 2) = some percent ∧
      record.rate = some perSecond ∧ Number.read? (rate.fixed 2) = some perSecond ∧
      record.wall = some seconds ∧ Number.read? (wall.fixed 2) = some seconds := by
  obtain ⟨directory, algorithm, text, hdestination, -, halgorithm, rfl, hclock, hcorrect, hread, hrecord⟩ :=
    exists_record hrun htrace hbreaks hprintable
  rw [← hclock] at hwall
  subst hwall hrate haccuracy
  have htimes := Summary.pair?_timeLine hfinite.1 hfinite.2
  have hfixed : ∀ x : Double, Number.read? (x.fixed 2) = some (x.roundTo 2) := Number.read?_fixed (by decide)
  refine ⟨directory, algorithm, text, summary.record, _, _, _, hdestination, hread, hrecord, congrArg some halgorithm,
    rfl, rfl, rfl, rfl, rfl, rfl, rfl, Summary.record_accuracy hcorrect, hfixed _, ?_, hfixed _, ?_, hfixed _⟩
  · rw [Summary.rate_record, htimes, Option.map_some]
    rfl
  · rw [Summary.wall_record, htimes, Option.map_some]

theorem printable_of_all_lt (h : summary.counts.all (· < 10) = true) : summary.Printable := by
  intro n hn
  have hten : n < 10 ^ 1 := by simpa using List.all_eq_true.mp h n hn
  exact Nat.lt_of_lt_of_le hten (Nat.pow_le_pow_right (by decide) (by decide))

theorem figures_of_mixedTrace (hrun : (run skippingSettings 0 1 (traceTree mixedTrace)).result = .ok summary) :
    summary.tally.total = 2 ∧ summary.tally.correct = 0 ∧ summary.Printable := by
  have hfigures : (run skippingSettings 0 1 (traceTree mixedTrace)).result.toOption.map (fun summary =>
      (summary.tally.total, summary.tally.correct, summary.counts.all (· < 10))) = some (2, 0, true) := by
    decide +kernel
  rw [hrun] at hfigures
  obtain ⟨htotal, hcorrect, hcounts⟩ : summary.tally.total = 2 ∧ summary.tally.correct = 0 ∧
      summary.counts.all (· < 10) = true := by simpa using Option.some.inj hfigures
  exact ⟨htotal, hcorrect, printable_of_all_lt hcounts⟩

theorem record_of_run_mixedTrace :
    ∃ summary text record, (run skippingSettings 0 1 (traceTree mixedTrace)).result = .ok summary ∧
      (run skippingSettings 0 1 (traceTree mixedTrace)).files.read "results/cw/summary.txt" = .ok text ∧
      Compare.Record.ofText text = .ok record ∧ record.algorithm = some "cw" ∧
      record.trace = some "trace.jsonl" ∧ record.total = some 2 ∧ record.accuracy = some 0 ∧
      record.rate = some 2 ∧ record.wall = some 1 := by
  have hready := ready_traceTree mixedTrace
  obtain ⟨summary, hrun⟩ := hready.exists_result rfl mixedTrace_ne_ends plain_mixedTrace 0 1
  obtain ⟨htotal, hcorrect, hprintable⟩ := figures_of_mixedTrace hrun
  have haccuracy : (0 : Double) =
      if summary.tally.total = 0 then 0 else .ofRatio summary.tally.correct summary.tally.total := by
    rw [htotal, hcorrect]
    decide +kernel
  have hrate : (2 : Double) = if Number.less 0 (1 : Double) then Number.ofInt summary.tally.total / 1 else 0 := by
    rw [htotal]
    decide +kernel
  obtain ⟨directory, algorithm, text, record, percent, perSecond, seconds, hdestination, hread, hrecord, halgorithm,
    htrace, htotalRead, -, -, -, -, -, haccuracyEq, hpercent, hrateEq, hperSecond, hwallEq, hseconds⟩ :=
    record_of_run hrun rfl ⟨by decide, by decide⟩ haccuracy (by decide +kernel) hrate (by decide +kernel) hprintable
  obtain ⟨rfl, rfl⟩ := Prod.mk.inj (Except.ok.inj (hdestination.symm.trans hready.destination))
  have hzero : Number.read? ((0 * 100 : Double).fixed 2) = some (0 : Double) := by decide +kernel
  have htwo : Number.read? ((2 : Double).fixed 2) = some (2 : Double) := by decide +kernel
  have hone : Number.read? ((1 : Double).fixed 2) = some (1 : Double) := by decide +kernel
  refine ⟨summary, text, record, hrun, hread, hrecord, halgorithm, htrace, htotal ▸ htotalRead, ?_, ?_, ?_⟩
  · rw [haccuracyEq, ← hpercent, hzero]
  · rw [hrateEq, ← hperSecond, htwo]
  · rw [hwallEq, ← hseconds, hone]

end Replay

end OnlineLearning
