import OnlineLearning.Proofs.Compare.Agreement
import OnlineLearning.Proofs.Decimal.Positional

/-!
# The parameter that a comparison reads

A number that is laid out with a point only is found whole, and read as it is. Of a number with an exponent only
what stands before the exponent is found, which is a number from one to ten and so another number; and no number
is found where the parameter is infinite. So the parameter of a run is read back exactly if it is laid out with
a point only: `parameter_of_run`.
-/

namespace OnlineLearning

namespace Decimal
variable {d : Decimal}

/-- The decimal that stands before the exponent in the text of a decimal. -/
def leading (d : Decimal) : Decimal := ⟨Text.digitsValue d.significantDigits, 1 - d.significantDigits.length⟩

theorem leading_ne_zero (hd : d.coefficient ≠ 0) : d.leading.coefficient ≠ 0 := by
  obtain ⟨k, hk⟩ := exists_eq_withZeros hd
  intro hzero
  exact hd (by rw [hk]; exact (congrArg (· * 10 ^ k) hzero).trans (Nat.zero_mul _))

theorem size_leading (hd : d.coefficient ≠ 0) : d.leading.size = 1 := by
  obtain ⟨k, hk⟩ := exists_eq_withZeros hd
  have hreduced : d.reduced.coefficient ≠ 0 := leading_ne_zero hd
  have hsize : d.reduced.size = d.size := (size_withZeros hreduced k).symm.trans (congrArg size hk.symm)
  simp only [size, reduced] at hsize
  simp only [size, leading]
  omega

theorem rank_leading_bounds (hd : d.coefficient ≠ 0) :
    (power 0).rank Format.double ≤ d.leading.rank Format.double ∧
      d.leading.rank Format.double ≤ (power 1).rank Format.double := by
  have hsize := size_leading hd
  exact ⟨rank_mono (power_le (leading_ne_zero hd) (by omega)), rank_mono (Nat.le_of_lt (lt_power (by omega)))⟩

end Decimal

namespace Compare
variable {word : List Char}

/-! ### Numbers with a point -/

theorem isFigure_text {x : Double} (hfinite : x.isFinite = true) (hpositional : x.IsPositional) : IsFigure x.text := by
  obtain ⟨s, r, rfl⟩ := Number.isFinite_iff.mp hfinite
  rw [Number.text]
  split
  · exact ⟨s, ⟨0, -1⟩, ['0'], ['0'], Decimal.pointed_zero, rfl⟩
  · rename_i hr
    have hpos : 0 < r.val := Nat.pos_of_ne_zero hr
    have hd := Number.coefficient_shortest_ne_zero (F := Format.double) hpos
    obtain ⟨whole, fraction, k, htext, hfraction, hpointed⟩ := Decimal.exists_withPoint
      (Decimal.isLatinDigit_of_mem_significantDigits _) (Decimal.significantDigits_ne_nil hd)
      (Decimal.shortest Format.double r).size
    refine ⟨s, _, whole, fraction, hpointed, ?_⟩
    rw [Decimal.text_of_isPositional ((Number.isPositional_shortest s hpos).mpr hpositional), htext, Decimal.mantissa,
      if_neg hfraction]

theorem toDouble_text (x : Double) : toDouble x.text = x := by
  rw [toDouble, Number.read?_text (by decide)]
  rfl

theorem head?_floats_of_isPositional (hword : ∀ c ∈ word, IsIdle c) {x : Double} (hfinite : x.isFinite = true)
    (hpositional : x.IsPositional) : (floats (word ++ x.text)).head? = some x := by
  obtain ⟨xs, hxs⟩ := exists_floats_eq word [] hword (isFigure_text hfinite hpositional) (fun c hc => by cases hc)
  rw [List.append_nil] at hxs
  rw [hxs, toDouble_text]
  rfl

/-! ### Numbers with an exponent -/

/-- A number with an exponent is found as what stands before the exponent. -/
theorem head?_floats_of_exponent (hword : ∀ c ∈ word, IsIdle c) (s : Bool) {r : Fin Format.double.top}
    (hr : 0 < r.val) (hpositional : ¬ (Decimal.shortest Format.double r).IsPositional) :
    (floats (word ++ (Number.finite s r : Double).text)).head? =
      some (Decimal.toNumber Format.double s (Decimal.shortest Format.double r).leading) := by
  have hd := Number.coefficient_shortest_ne_zero (F := Format.double) hr
  rw [Number.text, if_neg (Nat.ne_of_gt hr), Decimal.text_of_not_isPositional hpositional]
  generalize Decimal.shortest Format.double r = d at hd
  obtain ⟨first, fraction, power, htext, -, hpointed, -⟩ := Decimal.exists_withExponent
    (Decimal.isLatinDigit_of_mem_significantDigits d) (Decimal.significantDigits_ne_nil hd) .plain (d.size - 1)
  have hleading : Decimal.Pointed d.leading [first] fraction := hpointed
  obtain ⟨xs, hxs⟩ := exists_floats_eq word _ hword ⟨s, _, [first], fraction, hleading, rfl⟩
    (fun c (hc : c ∈ ('e' :: (if decide (d.size - 1 < 0) then '-' else '+') :: power).head?) => by
      obtain rfl := Option.some.inj hc
      decide)
  rw [htext, ← List.append_assoc (Number.signText s), hxs, toDouble,
    Number.read?_signText s hleading.isPlain hleading.exists_first, hleading.read?_mantissa, Option.map_some,
    Option.getD_some, List.head?_cons]

theorem toNumber_leading_ne (s : Bool) {r : Fin Format.double.top} (hr : 0 < r.val)
    (hpositional : ¬ (Decimal.shortest Format.double r).IsPositional) :
    Decimal.toNumber Format.double s (Decimal.shortest Format.double r).leading ≠ .finite s r := by
  obtain ⟨hpos, hzero, hone, hsixteen, htop⟩ := Decimal.rank_powers
  obtain ⟨hleast, hmost⟩ :=
    Decimal.rank_leading_bounds (Number.coefficient_shortest_ne_zero (F := Format.double) hr)
  rw [Decimal.isPositional_shortest_iff_rank hr] at hpositional
  generalize (Decimal.shortest Format.double r).leading = d at hleast hmost
  have hrank : d.rank Format.double < Format.double.top := by omega
  rw [Decimal.toNumber_eq_ofRank (by decide) (by omega) hrank, Number.ofRank, dif_pos hrank]
  intro heq
  -- a number from one to ten has a point only
  have hr' : d.rank Format.double = r.val := congrArg Fin.val (Number.finite.inj heq).2
  exact hpositional ⟨by omega, by omega⟩

/-! ### Numbers of all kinds -/

/-- What is found of a finite number is the number exactly if it is laid out with a point only. -/
theorem exists_head?_floats (hword : ∀ c ∈ word, IsIdle c) {x : Double} (hfinite : x.isFinite = true) :
    ∃ y, (floats (word ++ x.text)).head? = some y ∧ (y = x ↔ x.IsPositional) := by
  by_cases hpositional : x.IsPositional
  · exact ⟨x, head?_floats_of_isPositional hword hfinite hpositional, iff_of_true rfl hpositional⟩
  · obtain ⟨s, r, rfl⟩ := Number.isFinite_iff.mp hfinite
    have hr : 0 < r.val := Nat.pos_of_ne_zero fun hr => hpositional (Number.isPositional_zero s hr)
    have hshortest : ¬ (Decimal.shortest Format.double r).IsPositional :=
      fun h => hpositional ((Number.isPositional_shortest s hr).mp h)
    exact ⟨_, head?_floats_of_exponent hword s hr hshortest,
      iff_of_false (toNumber_leading_ne s hr hshortest) hpositional⟩

/-- Nothing is found of a number that is not finite. -/
theorem head?_floats_of_not_finite {x : Double} (hfinite : x.isFinite = false) :
    (floats ("Phi: ".toList ++ x.text)).head? = none := by
  cases x with
  | nan => decide
  | infinite s => cases s <;> decide
  | finite s r => cases hfinite

end Compare

namespace Learner

theorem exists_confidenceWeighted_of_ofName {phi eta : Datum} {quantile : Double → Double} {learner : Learner}
    (h : ofName "cw" phi eta quantile = .ok learner) : ∃ phi, learner = .confidenceWeighted phi := by
  rw [ofName, if_neg (by decide), if_pos rfl] at h
  cases hphi : Confidence.resolve quantile phi eta with
  | error e =>
    rw [hphi] at h
    cases h
  | ok phi =>
    rw [hphi] at h
    exact ⟨phi, (Except.ok.inj h).symm⟩

end Learner

namespace Replay

/-! ### Runs -/

variable {s : Settings} {quantile : Double → Double} {files : FileTree} {start finish : Double} {trace : String}
  {summary : Summary}

namespace Course
variable {f : Finished} {text : String} {made tabled done : FileTree}

theorem algorithm_eq {wall : Double} {name : String} (h : Course s quantile wall files f text made tabled done)
    (hname : s.algorithm = .value name) : f.algorithm = name := by
  have hdestination := h.destination
  unfold Settings.destination at hdestination
  obtain ⟨directory, -, hdestination⟩ := exists_of_bind_eq_ok hdestination
  obtain ⟨algorithm, halgorithm, hdestination⟩ := exists_of_bind_eq_ok hdestination
  rw [hname] at halgorithm
  cases halgorithm
  exact (Prod.mk.inj (Except.ok.inj hdestination)).2.symm

/-- The path of a trace that was opened is not too long for the counts behind it to be found. -/
theorem length_names_lt {wall : Double} (h : Course s quantile wall files f text made tabled done)
    (hname : f.algorithm = "cw") : (f.summary wall).names.length < Fault.digitLimit := by
  have hlimits : "cw".toList.length + FileTree.pathLimit + 19 < Fault.digitLimit := by decide
  have hlength : f.trace.toList.length ≤ FileTree.pathLimit :=
    FileTree.length_le_of_read (load_eq_ok_iff.mp h.load).2.2
  have hnames : (f.summary wall).names.length = "cw".toList.length + f.trace.toList.length + 19 := by
    rw [← hname, Summary.length_names]
    rfl
  omega

end Course

theorem exists_phi {phi : Double} (hphi : summary.phi? = some phi) (hbreaks : Text.Unbroken summary.algorithm.toList)
    (hnames : summary.names.length < Fault.digitLimit) (hprintable : summary.Printable) :
    ∃ record, Compare.Record.ofText summary.text = .ok record ∧
      (Text.Unbroken summary.trace.toList ∨ phi.isFinite = true → (record.phi = some phi ↔ phi.IsPositional)) := by
  have hword : ∀ c ∈ "Phi: ".toList, Compare.IsIdle c := Text.forall_mem_of_all (by decide)
  have htext : summary.phiText = phi.text := by rw [Summary.phiText, hphi]
  have hread : ∀ r : Compare.Record, phi.isFinite = true →
      ((summary.figures r).phi = some phi ↔ phi.IsPositional) := by
    intro r hfinite
    obtain ⟨y, hy, hiff⟩ := Compare.exists_head?_floats hword hfinite
    rw [Summary.phi_figures, htext, hy, Option.some_or, Option.some_inj, hiff]
  by_cases htrace : Text.Unbroken summary.trace.toList
  · refine ⟨summary.record, Summary.ofText_text hbreaks htrace hprintable, fun _ => ?_⟩
    cases hfinite : phi.isFinite with
    | true => exact hread _ hfinite
    | false =>
      rw [Summary.phi_record, htext, Compare.head?_floats_of_not_finite hfinite]
      exact iff_of_false (fun h => by cases h) (Number.not_isPositional_of_not_finite hfinite)
  · obtain ⟨r, hr⟩ := Summary.exists_ofText_text hprintable hnames
    exact ⟨_, hr, fun h => hread r (h.resolve_left htrace)⟩

/-- What is read as the parameter of a confidence-weighted run is the parameter exactly if that is laid out with a
point only. Where the path of the trace breaks lines, this is said of finite parameters: an infinite one has no
figure, so that a figure from a further line of the path may stand in its place. -/
theorem parameter_of_run (hrun : (run s start finish files quantile).result = .ok summary)
    (hname : s.algorithm = .value "cw") (htrace : s.trace = .value trace) (hprintable : summary.Printable) :
    ∃ directory text record phi, s.destination = .ok (directory, "cw") ∧
      (run s start finish files quantile).files.read (summaryPath directory) = .ok text ∧
      Compare.Record.ofText text = .ok record ∧
      Learner.ofName "cw" (parameter s.phi?) (parameter s.eta?) quantile = .ok (.confidenceWeighted phi) ∧
      (Text.Unbroken trace.toList ∨ phi.isFinite = true → (record.phi = some phi ↔ phi.IsPositional)) := by
  obtain ⟨f, text, made, tabled, done, hcourse, rfl⟩ := exists_course_iff.mp hrun
  have halgorithm := hcourse.algorithm_eq hname
  have htrace' := hcourse.trace_eq htrace
  obtain ⟨hbreaks, -⟩ := hcourse.trimmed_algorithm
  obtain ⟨hlearner, -⟩ := load_eq_ok_iff.mp hcourse.load
  rw [halgorithm] at hlearner
  obtain ⟨phi, hphi⟩ := Learner.exists_confidenceWeighted_of_ofName hlearner
  have hread := hcourse.read_summary
  rw [← hcourse.run_eq.2] at hread
  have hdestination := hcourse.destination
  rw [halgorithm] at hdestination
  rw [← htrace']
  obtain ⟨record, hrecord, hiff⟩ := exists_phi (congrArg Learner.phi? hphi) hbreaks
    (hcourse.length_names_lt halgorithm) hprintable
  exact ⟨f.directory, _, record, phi, hdestination, hread, hrecord, hlearner.trans (congrArg Except.ok hphi), hiff⟩

theorem parameter_of_run_mixedTrace : ∃ text record,
    (run skippingSettings 0 1 (traceTree mixedTrace)).files.read "results/cw/summary.txt" = .ok text ∧
      Compare.Record.ofText text = .ok record ∧ record.phi = some 1 := by
  have hready := ready_traceTree mixedTrace
  obtain ⟨summary, hrun⟩ := hready.exists_result rfl mixedTrace_ne_ends plain_mixedTrace 0 1
  obtain ⟨-, -, hprintable⟩ := figures_of_mixedTrace hrun
  obtain ⟨directory, text, record, phi, hdestination, hread, hrecord, hlearner, hiff⟩ :=
    parameter_of_run hrun rfl rfl hprintable
  obtain ⟨rfl, -⟩ := Prod.mk.inj (Except.ok.inj (hdestination.symm.trans hready.destination))
  have hphi : phi = 1 := Learner.confidenceWeighted.inj (Except.ok.inj (hlearner.symm.trans hready.naming))
  rw [hphi] at hiff
  have hpositional : Number.IsPositional 1 := by decide +kernel
  exact ⟨text, record, hread, hrecord, (hiff (.inl ⟨by decide, by decide⟩)).mpr hpositional⟩

/-- One hundred-thousandth, the first of the powers of ten below one that has an exponent. -/
def smallPhi : Double := Gaussian.decimal 1 (-5)

def smallPhiSettings : Settings := { skippingSettings with phi? := some (.value smallPhi) }

theorem smallPhi_facts : Number.less 0 smallPhi = true ∧ (1 : Double) ≠ smallPhi ∧
    (Compare.floats ("Phi: ".toList ++ smallPhi.text)).head? = some 1 ∧
    (run smallPhiSettings 0 1 (traceTree mixedTrace)).result.toOption.map (fun summary =>
      (summary.phi?, summary.counts.all (· < 10))) = some (some smallPhi, true) := by decide +kernel

theorem plain_smallPhi :
    (Learner.trained (.confidenceWeighted smallPhi) (Trace.examples (Text.lines mixedTrace.toList))).Plain := by
  decide +kernel

theorem ready_smallPhi : Ready smallPhiSettings (traceTree mixedTrace) Gaussian.quantile "results/cw" "cw" "trace.jsonl"
    mixedTrace (.confidenceWeighted smallPhi) := by
  have hcheck : Confidence.checkPhi smallPhi = .ok smallPhi := if_pos smallPhi_facts.1
  obtain ⟨hdestination, -, htracing, hreading, hmaking, hmodel, hsummary⟩ := ready_traceTree mixedTrace
  exact ⟨hdestination, congrArg (Learner.confidenceWeighted <$> ·) hcheck, htracing, hreading, hmaking, hmodel,
    hsummary⟩

theorem parameter_smallPhi : ∃ summary text record,
    Learner.ofName "cw" (parameter smallPhiSettings.phi?) (parameter smallPhiSettings.eta?) =
        .ok (.confidenceWeighted smallPhi) ∧
      (run smallPhiSettings 0 1 (traceTree mixedTrace)).result = .ok summary ∧
      (run smallPhiSettings 0 1 (traceTree mixedTrace)).files.read "results/cw/summary.txt" = .ok text ∧
      Compare.Record.ofText text = .ok record ∧ record.phi = some 1 ∧ record.phi ≠ some smallPhi := by
  obtain ⟨summary, hrun⟩ := ready_smallPhi.exists_result rfl mixedTrace_ne_ends plain_smallPhi 0 1
  obtain ⟨-, hne, hfound, hfigures⟩ := smallPhi_facts
  rw [hrun] at hfigures
  obtain ⟨hphi, hcounts⟩ := Prod.mk.inj (Option.some.inj hfigures)
  obtain ⟨directory, algorithm, text, hdestination, -, -, -, -, -, hread, hrecord⟩ :=
    exists_record hrun rfl ⟨by decide, by decide⟩ (printable_of_all_lt hcounts)
  obtain ⟨rfl, -⟩ := Prod.mk.inj (Except.ok.inj (hdestination.symm.trans ready_smallPhi.destination))
  have hone : summary.record.phi = some 1 := by rw [Summary.phi_record, Summary.phiText, hphi, hfound]
  refine ⟨summary, text, _, ready_smallPhi.naming, hrun, hread, hrecord, hone, ?_⟩
  rw [hone]
  exact fun h => hne (Option.some.inj h)

end Replay

end OnlineLearning
