import OnlineLearning.Proofs.Compare.Runs
import OnlineLearning.Proofs.Decimal.RoundTrip
import OnlineLearning.Proofs.Replay.Counts

/-!
# A summary that is read back

Every line of a summary starts with its own word, so it is taken for no other, and its figures are found in the
order in which they were written: `exists_record`. The path of the trace may hold anything but a line break, and
is read without the blanks around it.
-/

namespace OnlineLearning

namespace Text
variable {cs line : List Char}

/-- A text of plain characters, at least one. -/
def IsInk (cs : List Char) : Prop := cs ≠ [] ∧ ∀ c ∈ cs, isPlain c = true

instance (cs : List Char) : Decidable (IsInk cs) :=
  decidable_of_iff (cs ≠ [] ∧ cs.all isPlain = true) (by rw [IsInk, List.all_eq_true])

theorem isInk_digits (n : Nat) : IsInk (digits n) :=
  ⟨digits_ne_nil n, fun c hc => isPlain_of_isLatinDigit (isLatinDigit_of_mem_digits n c hc)⟩

theorem IsInk.unbroken (h : IsInk cs) : Unbroken cs :=
  ⟨fun hmem => absurd (h.2 _ hmem) (by decide), fun hmem => absurd (h.2 _ hmem) (by decide)⟩

theorem IsInk.isBlank_last (h : IsInk cs) (front : List Char) : ∀ c ∈ (front ++ cs).getLast?, isBlank c = false := by
  obtain ⟨cs, d, rfl⟩ := (List.eq_nil_or_concat' cs).resolve_left h.1
  intro c hc
  rw [← List.append_assoc, List.getLast?_concat] at hc
  obtain rfl := Option.some.inj hc
  exact isBlank_of_isPlain (h.2 _ (by simp))

theorem trim_line (hfirst : ∀ c ∈ line.head?, isBlank c = false) (hlast : ∀ c ∈ line.getLast?, isBlank c = false) :
    trim (line ++ ['\n']) = line := by
  rw [trim, trimBy_concat (by decide), trimBy_of_ends hfirst hlast]

/-- A text without the blanks at its ends. -/
def trimmed (s : String) : String := String.ofList (trim s.toList)

end Text

namespace Number
variable {F : Format}

theorem isInk_signText_append {body : List Char} (h : Text.IsInk body) (s : Bool) :
    Text.IsInk (signText s ++ body) := by
  have hsign : ∀ c ∈ signText s, Text.isPlain c = true := Text.forall_mem_of_all (by cases s <;> rfl)
  exact ⟨List.append_ne_nil_of_right_ne_nil _ h.1, List.forall_mem_append.mpr ⟨hsign, h.2⟩⟩

theorem isInk_nan : Text.IsInk "nan".toList := by decide

theorem isInk_infinite (s : Bool) : Text.IsInk (signText s ++ "inf".toList) := isInk_signText_append (by decide) s

theorem isInk_text (x : Number F) : Text.IsInk x.text := by
  cases x with
  | nan => exact isInk_nan
  | infinite s => exact isInk_infinite s
  | finite s r =>
    rw [text]
    split
    · exact isInk_signText_append (by decide) s
    · rename_i hr
      have hd := coefficient_shortest_ne_zero (F := F) (Nat.pos_of_ne_zero hr)
      obtain ⟨⟨c, rest, hfirst, -⟩, -⟩ := Decimal.exists_read?_text hd
      exact isInk_signText_append ⟨by rw [hfirst]; exact List.cons_ne_nil _ _, Decimal.isPlain_text hd⟩ s

theorem isInk_fixed {places : Nat} (hplaces : 0 < places) (x : Number F) : Text.IsInk (x.fixed places) := by
  cases x with
  | nan => exact isInk_nan
  | infinite s => exact isInk_infinite s
  | finite s r =>
    obtain ⟨whole, fraction, htext, -, hpointed⟩ := exists_fixed_eq hplaces s r
    obtain ⟨c, rest, hfirst, -⟩ := hpointed.exists_first
    rw [htext]
    exact isInk_signText_append ⟨by rw [hfirst]; exact List.cons_ne_nil _ _, hpointed.isPlain⟩ s

end Number

namespace Compare.Record
variable {word : List Char} {n k : Nat}

/-! ### Single lines -/

theorem setFirst_digits (r : Record) (hword : ∀ c ∈ word, Text.isDigit c = false) (hn : n < 10 ^ Fault.digitLimit)
    (set : Nat → Record) : r.setFirst (word ++ Text.digits n) set = .ok (set n) := by
  obtain ⟨runs, hruns⟩ := exists_wholeNumbers_eq hword n (fun c (hc : c ∈ [].head?) => by cases hc)
  rw [List.append_nil] at hruns
  rw [setFirst, hruns]
  dsimp only
  rw [toNat_digits hn]
  rfl

theorem setPair_digits (r : Record) {word' : List Char} (hword : ∀ c ∈ word, Text.isDigit c = false)
    (hword' : ∀ c ∈ word', Text.isDigit c = false) (hne : word' ≠ []) (hn : n < 10 ^ Fault.digitLimit)
    (hk : k < 10 ^ Fault.digitLimit) (set : Nat → Nat → Record) :
    r.setPair (word ++ Text.digits n ++ word' ++ Text.digits k) set = .ok (set n k) := by
  obtain ⟨runs, hruns⟩ := exists_wholeNumbers_eq_pair hword n hword' hne k
  have hline : word ++ Text.digits n ++ word' ++ Text.digits k =
      word ++ (Text.digits n ++ (word' ++ (Text.digits k ++ []))) := by simp
  rw [setPair, hline, hruns]
  dsimp only
  rw [toNat_digits hn, toNat_digits hk]
  rfl

/-- A line that names a text: the text follows its word, and stays but for the blanks around it. -/
theorem exists_trim_named (word : List Char) (hne : word ≠ []) (hfirst : ∀ c ∈ word.head?, Text.isBlank c = false)
    (hlast : ∀ c ∈ word.getLast?, Text.isBlank c = false) (t : List Char) :
    ∃ rest, Text.trim (word ++ ' ' :: (t ++ ['\n'])) = word ++ rest ∧ Text.trim rest = Text.trim t := by
  obtain ⟨rest, htrim, hrest⟩ := Text.exists_trimBy_append hne hfirst hlast (' ' :: (t ++ ['\n']))
  refine ⟨rest, htrim, ?_⟩
  rw [Text.trimBy_cons (by decide), Text.trimBy_concat (by decide)] at hrest
  exact hrest

theorem takeLine_algorithm (r : Record) (t : List Char) :
    r.takeLine (Text.trim ("Algorithm: ".toList ++ t ++ ['\n'])) =
      .ok { r with algorithm := some (String.ofList (Text.trim t)) } := by
  obtain ⟨rest, htrim, hrest⟩ := exists_trim_named "Algorithm:".toList (by decide)
    (Text.forall_mem_option_of_all (by decide)) (Text.forall_mem_option_of_all (by decide)) t
  rw [List.append_assoc]
  show r.takeLine (Text.trim ("Algorithm:".toList ++ ' ' :: (t ++ ['\n']))) = _
  rw [htrim, ← hrest]
  rfl

theorem takeLine_trace (r : Record) (t : List Char) :
    r.takeLine (Text.trim ("Trace: ".toList ++ t ++ ['\n'])) =
      .ok { r with trace := some (String.ofList (Text.trim t)) } := by
  obtain ⟨rest, htrim, hrest⟩ := exists_trim_named "Trace:".toList (by decide)
    (Text.forall_mem_option_of_all (by decide)) (Text.forall_mem_option_of_all (by decide)) t
  rw [List.append_assoc]
  show r.takeLine (Text.trim ("Trace:".toList ++ ' ' :: (t ++ ['\n']))) = _
  rw [htrim, ← hrest]
  rfl

/-- The first two figures of a line. -/
def pair? (xs : List Double) : Option (Double × Double) :=
  match xs with
  | x :: y :: _ => some (x, y)
  | _ => none

theorem takeLine_phi_eq (r : Record) (cs : List Char) : r.takeLine ("Phi: ".toList ++ cs) =
    match floats ("Phi: ".toList ++ cs) with
    | [] => .ok r
    | x :: _ => .ok { r with phi := some x } := rfl

theorem takeLine_phi (r : Record) {x : List Char} (hx : Text.IsInk x) :
    r.takeLine (Text.trim ("Phi: ".toList ++ x ++ ['\n'])) =
      .ok { r with phi := (floats ("Phi: ".toList ++ x)).head?.or r.phi } := by
  rw [Text.trim_line (fun c hc => by obtain rfl := Option.some.inj hc; decide) (hx.isBlank_last _)]
  rw [takeLine_phi_eq]
  cases floats ("Phi: ".toList ++ x) <;> rfl

theorem takeLine_accuracy_eq (r : Record) (cs : List Char) : r.takeLine ("Accuracy: ".toList ++ cs) =
    match floats ("Accuracy: ".toList ++ cs) with
    | [] => .ok r
    | x :: _ => .ok { r with accuracy := some x } := rfl

theorem takeLine_accuracy (r : Record) {x : List Char} (hx : Text.IsInk x) :
    r.takeLine (Text.trim ("Accuracy: ".toList ++ x ++ ['\n'])) =
      .ok { r with accuracy := (floats ("Accuracy: ".toList ++ x)).head?.or r.accuracy } := by
  rw [Text.trim_line (fun c hc => by obtain rfl := Option.some.inj hc; decide) (hx.isBlank_last _)]
  rw [takeLine_accuracy_eq]
  cases floats ("Accuracy: ".toList ++ x) <;> rfl

theorem takeLine_times_eq (r : Record) (cs : List Char) : r.takeLine ("Examples/s: ".toList ++ cs) =
    match floats ("Examples/s: ".toList ++ cs) with
    | x :: y :: _ => .ok { r with rate := some x, wall := some y }
    | _ => .ok r := rfl

theorem takeLine_times (r : Record) (x y : List Char) :
    r.takeLine (Text.trim ("Examples/s: ".toList ++ x ++ " | Wall Time: ".toList ++ y ++ " s".toList ++ ['\n'])) =
      .ok { r with
        rate := ((pair? (floats ("Examples/s: ".toList ++ x ++ " | Wall Time: ".toList ++ y ++ " s".toList))).map
          Prod.fst).or r.rate
        wall := ((pair? (floats ("Examples/s: ".toList ++ x ++ " | Wall Time: ".toList ++ y ++ " s".toList))).map
          Prod.snd).or r.wall } := by
  have hlast : ∀ c ∈ ("Examples/s: ".toList ++ x ++ " | Wall Time: ".toList ++ y ++ " s".toList).getLast?,
      Text.isBlank c = false := by
    intro c hc
    rw [List.getLast?_append] at hc
    obtain rfl := Option.some.inj hc
    decide
  rw [Text.trim_line (fun c hc => by obtain rfl := Option.some.inj hc; decide) hlast]
  simp only [List.append_assoc]
  rw [takeLine_times_eq]
  unfold pair?
  split <;> rfl

theorem takeLine_total (r : Record) (hn : n < 10 ^ Fault.digitLimit) :
    r.takeLine (Text.trim ("Total Examples: ".toList ++ Text.digits n ++ ['\n'])) = .ok { r with total := some n } := by
  rw [Text.trim_line (fun c hc => by obtain rfl := Option.some.inj hc; decide) ((Text.isInk_digits n).isBlank_last _)]
  exact r.setFirst_digits (Text.forall_mem_of_all (by decide)) hn _

theorem takeLine_skipped (r : Record) (hn : n < 10 ^ Fault.digitLimit) :
    r.takeLine (Text.trim ("Skipped: ".toList ++ Text.digits n ++ ['\n'])) = .ok { r with skipped := some n } := by
  rw [Text.trim_line (fun c hc => by obtain rfl := Option.some.inj hc; decide) ((Text.isInk_digits n).isBlank_last _)]
  exact r.setFirst_digits (Text.forall_mem_of_all (by decide)) hn _

theorem takeLine_mistakes (r : Record) (hn : n < 10 ^ Fault.digitLimit) (hk : k < 10 ^ Fault.digitLimit) :
    r.takeLine (Text.trim ("Mistakes: ".toList ++ Text.digits n ++ " | Updates: ".toList ++ Text.digits k ++ ['\n'])) =
      .ok { r with mistakes := some n, updates := some k } := by
  rw [Text.trim_line (fun c hc => by obtain rfl := Option.some.inj hc; decide) ((Text.isInk_digits k).isBlank_last _)]
  exact r.setPair_digits (Text.forall_mem_of_all (by decide)) (Text.forall_mem_of_all (by decide)) (by decide) hn hk _

theorem takeLine_labels (r : Record) (hn : n < 10 ^ Fault.digitLimit) (hk : k < 10 ^ Fault.digitLimit) :
    r.takeLine (Text.trim ("Labels: ".toList ++ Text.digits n ++ " | Weights: ".toList ++ Text.digits k ++ ['\n'])) =
      .ok { r with labels := some n, weights := some k } := by
  rw [Text.trim_line (fun c hc => by obtain rfl := Option.some.inj hc; decide) ((Text.isInk_digits k).isBlank_last _)]
  exact r.setPair_digits (Text.forall_mem_of_all (by decide)) (Text.forall_mem_of_all (by decide)) (by decide) hn hk _

theorem ofLines_cons {r r' : Record} {line : List Char} (h : r.takeLine (Text.trim line) = .ok r')
    (lines : List (List Char)) : r.ofLines (line :: lines) = r'.ofLines lines := by
  rw [ofLines, h]
  rfl

theorem ofLines_append {r r' : Record} {lines : List (List Char)} (h : r.ofLines lines = .ok r')
    (lines' : List (List Char)) : r.ofLines (lines ++ lines') = r'.ofLines lines' := by
  induction lines generalizing r with
  | nil =>
    cases h
    rfl
  | cons line lines ih =>
    obtain ⟨next, hnext, hlines⟩ := exists_of_bind_eq_ok h
    rw [List.cons_append, ofLines_cons hnext, ih hlines]

/-! ### Lines of any kind -/

variable {cs : List Char}

theorem length_le_of_mem_digitRuns {steps : Nat} {run : List Char} (h : run ∈ digitRuns steps cs) :
    run.length ≤ cs.length := by
  induction steps generalizing cs with
  | zero => cases h
  | succ steps ih =>
    have hskip : (cs.dropWhile fun c => !Text.isDigit c).length ≤ cs.length := (List.dropWhile_sublist _).length_le
    rw [digitRuns] at h
    split at h
    · cases h
    · rcases List.mem_cons.mp h with rfl | h
      · exact Nat.le_trans (List.takeWhile_sublist _).length_le hskip
      · exact Nat.le_trans (ih h) (Nat.le_trans (List.dropWhile_sublist _).length_le hskip)

theorem toNat_of_mem_wholeNumbers (hcs : cs.length ≤ Fault.digitLimit) {run : List Char} (h : run ∈ wholeNumbers cs) :
    toNat run = .ok (Text.digitsValue run) :=
  if_neg (Nat.not_lt.mpr (Nat.le_trans (length_le_of_mem_digitRuns h) hcs))

theorem exists_setFirst (hcs : cs.length ≤ Fault.digitLimit) (r : Record) (set : Nat → Record) :
    ∃ r', r.setFirst cs set = .ok r' := by
  unfold setFirst
  split
  · exact ⟨_, rfl⟩
  · rename_i run runs hruns
    rw [toNat_of_mem_wholeNumbers hcs (by rw [hruns]; exact List.mem_cons_self ..)]
    exact ⟨_, rfl⟩

theorem exists_setPair (hcs : cs.length ≤ Fault.digitLimit) (r : Record) (set : Nat → Nat → Record) :
    ∃ r', r.setPair cs set = .ok r' := by
  unfold setPair
  split
  · rename_i first second runs hruns
    rw [toNat_of_mem_wholeNumbers hcs (by rw [hruns]; exact List.mem_cons_self ..),
      toNat_of_mem_wholeNumbers hcs (by rw [hruns]; exact List.mem_cons_of_mem _ (List.mem_cons_self ..))]
    exact ⟨_, rfl⟩
  · exact ⟨_, rfl⟩

theorem exists_ite {p : Prop} [Decidable p] {x y : Except Fault Record} (hx : ∃ r, x = .ok r) (hy : ∃ r, y = .ok r) :
    ∃ r, (if p then x else y) = .ok r := by
  split
  · exact hx
  · exact hy

/-- A line without a number of too many digits is taken up, whatever it says. -/
theorem exists_takeLine (hcs : cs.length ≤ Fault.digitLimit) (r : Record) : ∃ r', r.takeLine cs = .ok r' := by
  have hfirst := exists_setFirst hcs r
  have hpair := exists_setPair hcs r
  -- one step for each word that a line may start with
  refine exists_ite ⟨_, rfl⟩ (exists_ite ⟨_, rfl⟩ (exists_ite ?_ ?_))
  · split <;> exact ⟨_, rfl⟩
  refine exists_ite (hfirst _) (exists_ite (hfirst _) (exists_ite ?_ ?_))
  · split <;> exact ⟨_, rfl⟩
  refine exists_ite (hpair _) (exists_ite (hpair _) (exists_ite ?_ ⟨_, rfl⟩))
  split <;> exact ⟨_, rfl⟩

theorem exists_ofLines {lines : List (List Char)} (h : ∀ line ∈ lines, line.length ≤ Fault.digitLimit) (r : Record) :
    ∃ r', r.ofLines lines = .ok r' := by
  induction lines generalizing r with
  | nil => exact ⟨r, rfl⟩
  | cons line lines ih =>
    obtain ⟨hline, hlines⟩ := List.forall_mem_cons.mp h
    obtain ⟨next, hnext⟩ := exists_takeLine (Nat.le_trans (Text.length_trimBy_le Text.isBlank line) hline) r
    rw [ofLines_cons hnext]
    exact ih hlines next

end Compare.Record

/-! ### Whole summaries -/

namespace Replay.Summary
variable {s : Summary}

/-- The counts that a summary prints. -/
def counts (s : Summary) : List Nat :=
  [s.tally.total, s.tally.skipped, s.tally.total - s.tally.correct, s.tally.updates, s.labels, s.weights]

/-- Whether every count can be printed. Whole numbers of more than `Fault.digitLimit` digits have no text, so that
no run with such a count comes to an end. -/
def Printable (s : Summary) : Prop := ∀ n ∈ s.counts, n < 10 ^ Fault.digitLimit

/-- The parameter of a summary as it is printed. -/
def phiText (s : Summary) : List Char :=
  match s.phi? with
  | some phi => phi.text
  | none => ['-']

/-- The last line of a summary. -/
def timeLine (s : Summary) : List Char :=
  "Examples/s: ".toList ++ s.rate.fixed 2 ++ " | Wall Time: ".toList ++ s.wall.fixed 2 ++ " s".toList

theorem isInk_phiText (s : Summary) : Text.IsInk s.phiText := by
  unfold phiText
  split
  · exact Number.isInk_text _
  · decide

theorem isInk_percent (x : Double) : Text.IsInk x.percent := by
  obtain ⟨hne, hplain⟩ := Number.isInk_fixed (show 0 < 2 by decide) (x * 100)
  exact ⟨List.append_ne_nil_of_left_ne_nil hne _, List.forall_mem_append.mpr ⟨hplain, Text.forall_mem_of_all (by decide)⟩⟩

/-- The first two lines of a summary. -/
def names (s : Summary) : List Char :=
  "Algorithm: ".toList ++ s.algorithm.toList ++ '\n' :: ("Trace: ".toList ++ s.trace.toList)

theorem length_names (s : Summary) : s.names.length = s.algorithm.toList.length + s.trace.toList.length + 19 := by
  have halgorithm : "Algorithm: ".toList.length = 11 := by decide
  have htrace : "Trace: ".toList.length = 7 := by decide
  have hlength : ∀ (a b c d : List Char) (x : Char),
      (a ++ b ++ x :: (c ++ d)).length = b.length + d.length + (a.length + c.length + 1) := by
    intro a b c d x
    simp only [List.length_append, List.length_cons]
    omega
  exact (hlength _ _ _ _ _).trans (by rw [halgorithm, htrace])

/-- The other lines of a summary. -/
def figureLines (s : Summary) : List (List Char) :=
  ["Phi: ".toList ++ s.phiText,
    "Total Examples: ".toList ++ Text.digits s.tally.total, "Skipped: ".toList ++ Text.digits s.tally.skipped,
    "Accuracy: ".toList ++ s.accuracy.percent,
    "Mistakes: ".toList ++ Text.digits (s.tally.total - s.tally.correct) ++ " | Updates: ".toList ++
      Text.digits s.tally.updates,
    "Labels: ".toList ++ Text.digits s.labels ++ " | Weights: ".toList ++ Text.digits s.weights,
    "Examples/s: ".toList ++ s.rate.fixed 2 ++ " | Wall Time: ".toList ++ s.wall.fixed 2 ++ " s".toList]

theorem lines_eq (s : Summary) : s.lines =
    ("Algorithm: ".toList ++ s.algorithm.toList) :: ("Trace: ".toList ++ s.trace.toList) :: s.figureLines := rfl

theorem unbroken_word {word : List Char} (hn : word.contains '\n' = false) (hr : word.contains '\r' = false) :
    Text.Unbroken word := ⟨by simpa using hn, by simpa using hr⟩

theorem unbroken_figureLines (s : Summary) : ∀ line ∈ s.figureLines, Text.Unbroken line := by
  have hdigits : ∀ n, Text.Unbroken (Text.digits n) := fun n => (Text.isInk_digits n).unbroken
  have hfixed : ∀ x : Double, Text.Unbroken (x.fixed 2) := fun x =>
    (Number.isInk_fixed (show 0 < 2 by decide) x).unbroken
  refine List.forall_mem_cons.mpr ⟨(unbroken_word rfl rfl).append s.isInk_phiText.unbroken, ?_⟩
  refine List.forall_mem_cons.mpr ⟨(unbroken_word rfl rfl).append (hdigits _), ?_⟩
  refine List.forall_mem_cons.mpr ⟨(unbroken_word rfl rfl).append (hdigits _), ?_⟩
  refine List.forall_mem_cons.mpr ⟨(unbroken_word rfl rfl).append (isInk_percent _).unbroken, ?_⟩
  refine List.forall_mem_cons.mpr
    ⟨(((unbroken_word rfl rfl).append (hdigits _)).append (unbroken_word rfl rfl)).append (hdigits _), ?_⟩
  refine List.forall_mem_cons.mpr
    ⟨(((unbroken_word rfl rfl).append (hdigits _)).append (unbroken_word rfl rfl)).append (hdigits _), ?_⟩
  refine List.forall_mem_singleton.mpr ?_
  exact ((((unbroken_word rfl rfl).append (hfixed _)).append (unbroken_word rfl rfl)).append
    (hfixed _)).append (unbroken_word rfl rfl)

/-- The figures of a summary in a record. Where a line has no figure, that of the record stays. -/
def figures (s : Summary) (r : Compare.Record) : Compare.Record := { r with
  phi := (Compare.floats ("Phi: ".toList ++ s.phiText)).head?.or r.phi
  total := some s.tally.total
  skipped := some s.tally.skipped
  accuracy := (Compare.floats ("Accuracy: ".toList ++ s.accuracy.percent)).head?.or r.accuracy
  mistakes := some (s.tally.total - s.tally.correct)
  updates := some s.tally.updates
  labels := some s.labels
  weights := some s.weights
  rate := ((Compare.Record.pair? (Compare.floats s.timeLine)).map Prod.fst).or r.rate
  wall := ((Compare.Record.pair? (Compare.floats s.timeLine)).map Prod.snd).or r.wall }

/-- What is read from a summary. -/
def record (s : Summary) : Compare.Record :=
  s.figures { algorithm := some (Text.trimmed s.algorithm), trace := some (Text.trimmed s.trace) }

theorem phi_figures (s : Summary) (r : Compare.Record) :
    (s.figures r).phi = (Compare.floats ("Phi: ".toList ++ s.phiText)).head?.or r.phi := rfl

theorem phi_record (s : Summary) : s.record.phi = (Compare.floats ("Phi: ".toList ++ s.phiText)).head? := Option.or_none

theorem accuracy_record (s : Summary) :
    s.record.accuracy = (Compare.floats ("Accuracy: ".toList ++ s.accuracy.percent)).head? := Option.or_none

theorem rate_record (s : Summary) :
    s.record.rate = (Compare.Record.pair? (Compare.floats s.timeLine)).map Prod.fst := by
  simp only [record, figures, Option.or_none]

theorem wall_record (s : Summary) :
    s.record.wall = (Compare.Record.pair? (Compare.floats s.timeLine)).map Prod.snd := by
  simp only [record, figures, Option.or_none]

theorem ofLines_figureLines (hprintable : s.Printable) (r : Compare.Record) :
    r.ofLines (s.figureLines.map (· ++ ['\n'])) = .ok (s.figures r) := by
  obtain ⟨htotal, hskipped, hmistakes, hupdates, hlabels, hweights⟩ :
      s.tally.total < 10 ^ Fault.digitLimit ∧ s.tally.skipped < 10 ^ Fault.digitLimit ∧
        s.tally.total - s.tally.correct < 10 ^ Fault.digitLimit ∧ s.tally.updates < 10 ^ Fault.digitLimit ∧
        s.labels < 10 ^ Fault.digitLimit ∧ s.weights < 10 ^ Fault.digitLimit := by
    simpa [Printable, counts] using hprintable
  simp only [figureLines, List.map_cons, List.map_nil]
  rw [Compare.Record.ofLines_cons (Compare.Record.takeLine_phi _ s.isInk_phiText),
    Compare.Record.ofLines_cons (Compare.Record.takeLine_total _ htotal),
    Compare.Record.ofLines_cons (Compare.Record.takeLine_skipped _ hskipped),
    Compare.Record.ofLines_cons (Compare.Record.takeLine_accuracy _ (isInk_percent _)),
    Compare.Record.ofLines_cons (Compare.Record.takeLine_mistakes _ hmistakes hupdates),
    Compare.Record.ofLines_cons (Compare.Record.takeLine_labels _ hlabels hweights),
    Compare.Record.ofLines_cons (Compare.Record.takeLine_times _ _ _)]
  rfl

/-- The figures are read into what the lines of the names have left. -/
theorem ofText_text_of_names (hprintable : s.Printable) {r : Compare.Record}
    (h : Compare.Record.ofLines {} (Text.lines (s.names ++ ['\n'])) = .ok r) :
    Compare.Record.ofText s.text = .ok (s.figures r) := by
  have htext : s.text.toList = s.names ++ '\n' :: s.figureLines.flatMap fun line => line ++ ['\n'] := by
    rw [text, String.toList_ofList, lines_eq]
    exact Text.flatMap_two_lines _ _ _
  rw [Compare.Record.ofText, htext, Text.lines_append, Compare.Record.ofLines_append h,
    Text.lines_flatMap s.unbroken_figureLines]
  exact ofLines_figureLines hprintable r

/-- A summary is read back line by line, if no name in it breaks a line. -/
theorem ofText_text (halgorithm : Text.Unbroken s.algorithm.toList) (htrace : Text.Unbroken s.trace.toList)
    (hprintable : s.Printable) : Compare.Record.ofText s.text = .ok s.record := by
  have hnames : Text.lines (s.names ++ ['\n']) = ["Algorithm: ".toList ++ s.algorithm.toList,
      "Trace: ".toList ++ s.trace.toList].map (· ++ ['\n']) := by
    rw [← Text.lines_flatMap]
    · exact congrArg Text.lines (Text.flatMap_two_lines _ _ []).symm
    · exact List.forall_mem_cons.mpr ⟨(unbroken_word rfl rfl).append halgorithm,
        List.forall_mem_singleton.mpr ((unbroken_word rfl rfl).append htrace)⟩
  refine ofText_text_of_names hprintable ?_
  rw [hnames, List.map_cons, List.map_cons, Compare.Record.ofLines_cons (Compare.Record.takeLine_algorithm _ _),
    Compare.Record.ofLines_cons (Compare.Record.takeLine_trace _ _)]
  rfl

/-- A summary whose names are not too long is read, whatever they say. -/
theorem exists_ofText_text (hprintable : s.Printable) (hnames : s.names.length < Fault.digitLimit) :
    ∃ r, Compare.Record.ofText s.text = .ok (s.figures r) := by
  have hlines : ∀ line ∈ Text.lines (s.names ++ ['\n']), line.length ≤ Fault.digitLimit := by
    intro line hline
    refine Nat.le_trans (Text.length_le_of_mem_lines hline) ?_
    rw [List.length_append, List.length_singleton]
    exact hnames
  obtain ⟨r, hr⟩ := Compare.Record.exists_ofLines hlines {}
  exact ⟨r, ofText_text_of_names hprintable hr⟩

end Replay.Summary

end OnlineLearning
