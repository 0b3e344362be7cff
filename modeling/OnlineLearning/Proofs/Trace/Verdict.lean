import OnlineLearning.Feature.Basic
import OnlineLearning.Proofs.Json.Values
import OnlineLearning.Proofs.Text.Lines
import OnlineLearning.Trace.Basic

/-!
# What becomes of a line

The verdict on a line needs nothing but the line: whether a replay passes it over, learns it, may
skip it, or has to end at it. A line ends a replay if it is an example whose label cannot be a key,
or if it holds an integer of too many digits; a malformed token comes first, and makes its example
one that may be skipped. `reading` ties the verdict to what is read from the line.
-/

namespace OnlineLearning

/-- Whether a token writes no feature, and is no null token. -/
def Feature.isMalformed (token : Datum) : Bool :=
  match ofToken token with
  | .ok _ => false
  | .error _ => true

namespace Trace

/-- What becomes of a line. -/
inductive Verdict where
  | passed
  | learned
  | skipped
  | ends
deriving DecidableEq

/-- What becomes of an example. -/
def exampleVerdict (tokens : List Datum) (label : Datum) : Verdict :=
  if tokens.any Feature.isMalformed then .skipped
  else if label.kind.isMutable then .ends
  else .learned

/-- What becomes of a line that holds a datum. -/
def datumVerdict : Datum → Verdict
  | .dict entries =>
    match member "features" entries, member "label" entries with
    | .list tokens, label => if label.isNull then .passed else exampleVerdict tokens label
    | _, _ => .passed
  | _ => .passed

/-- What becomes of a line. -/
def verdict (line : List Char) : Verdict :=
  if line.all Text.isBlank then .passed
  else
    match Json.read line with
    | .ok d => datumVerdict d
    | .error (.malformed _ _) => .skipped
    | .error (.tooManyDigits _) => .ends

/-- The example on a line. -/
def example? (line : List Char) : Option (List Datum × Datum) :=
  match readLine 0 line with
  | .ok (.labelled tokens label) => some (tokens, label)
  | _ => none

/-- The examples of lines that are learned. -/
def examples (ls : List (List Char)) : List (List Datum × Datum) :=
  (ls.filter fun line => verdict line = .learned).filterMap example?

/-- Whether a line holds anything but blanks. -/
def written (line : List Char) : Bool := !line.all Text.isBlank

/-- Whether a trace has the lines of another but for those that may be skipped. Blank lines may stand
anywhere, and lines may end in different ways. -/
def Without (text text' : String) : Prop :=
  (Text.lines text'.toList).filter written =
    (Text.lines text.toList).filter fun line => written line && verdict line ≠ .skipped

/-- A trace without the lines that may be skipped. -/
def withoutSkipped (text : String) : String :=
  String.ofList ((Text.lines text.toList).filter fun line => verdict line ≠ .skipped).flatten

theorem without_withoutSkipped (text : String) : Without text (withoutSkipped text) := by
  rw [Without, withoutSkipped, String.toList_ofList, Text.lines_flatten_filter, List.filter_filter]

theorem verdict_of_not_written {line : List Char} (h : written line = false) : verdict line = .passed := by
  rw [written, Bool.not_eq_false'] at h
  exact if_pos h

theorem filter_learned {keep : List Char → Bool} (h : ∀ line, verdict line = .learned → keep line = true)
    (ls : List (List Char)) :
    ((ls.filter keep).filter fun line => verdict line = .learned) =
      ls.filter fun line => verdict line = .learned := by
  rw [List.filter_filter]
  refine List.filter_congr fun line _ => ?_
  by_cases hv : verdict line = .learned
  · simp [hv, h line hv]
  · simp [hv]

theorem written_of_ne_passed {line : List Char} (h : verdict line ≠ .passed) : written line = true := by
  cases hw : written line with
  | true => rfl
  | false => exact absurd (verdict_of_not_written hw) h

section Without
variable {text text' : String}

theorem Without.examples_eq (h : Without text text') :
    examples (Text.lines text'.toList) = examples (Text.lines text.toList) := by
  have hwritten : ∀ line, verdict line = .learned → written line = true := fun line hv =>
    written_of_ne_passed (by rw [hv]; decide)
  have hkept : ∀ line, verdict line = .learned → (written line && verdict line ≠ .skipped) = true := by
    intro line hv
    rw [hwritten line hv, hv]
    rfl
  unfold examples
  rw [← filter_learned hwritten, h, filter_learned hkept]

theorem Without.verdict_mem (h : Without text text') {line : List Char}
    (hline : line ∈ Text.lines text'.toList) (hne : verdict line ≠ .passed) :
    line ∈ Text.lines text.toList ∧ verdict line ≠ .skipped := by
  have hmem : line ∈ (Text.lines text'.toList).filter written :=
    List.mem_filter.mpr ⟨hline, written_of_ne_passed hne⟩
  rw [h] at hmem
  obtain ⟨hmem, hkeep⟩ := List.mem_filter.mp hmem
  simp only [Bool.and_eq_true, decide_eq_true_eq] at hkeep
  exact ⟨hmem, hkeep.2⟩

end Without

theorem value_member {entries : List (Datum × Datum)} (h : Json.Value (.dict entries)) (name : String) :
    Json.Value (member name entries) := by
  cases h with
  | dict _ h =>
    unfold member
    split
    · rename_i e he
      exact h e (List.mem_of_find?_eq_some he)
    · exact .null

/-- What reading a line gives, by the verdict on it. -/
inductive Reading (line : List Char) : Verdict → Except Fault Entry → Prop where
  | tooManyDigits (count : Nat) : Reading line .ends (.error (.tooManyDigits count))
  | blank : Reading line .passed (.ok .blank)
  | dropped (notice : Notice) : Reading line .passed (.ok (.dropped notice))
  | malformed (e : Fault) : Reading line .skipped (.ok (.malformed e))
  | labelled {v : Verdict} (tokens : List Datum) (label : Datum) (hv : exampleVerdict tokens label = v)
      (hexample : example? line = some (tokens, label)) (htokens : ∀ t ∈ tokens, Json.Value t)
      (hlabel : Json.Value label) (hnull : label.isNull = false) :
      Reading line v (.ok (.labelled tokens label))

theorem exampleVerdict_ne_passed (tokens : List Datum) (label : Datum) :
    exampleVerdict tokens label ≠ .passed := by
  unfold exampleVerdict
  split
  · decide
  · split <;> decide

theorem reading_ofDatum {line : List Char} {d : Datum} (n : Nat) (hblank : line.all Text.isBlank = false)
    (hread : Json.read line = .ok d) :
    Reading line (datumVerdict d) (.ok (Entry.ofDatum n d)) := by
  have hzero : readLine 0 line = .ok (Entry.ofDatum 0 d) := by rw [readLine, hblank, hread]; rfl
  have hvalue := Json.value_of_read hread
  cases d with
  | dict entries =>
    have hfeatures := value_member hvalue "features"
    have hlabel := value_member hvalue "label"
    simp only [datumVerdict, Entry.ofDatum] at hzero ⊢
    cases hf : member "features" entries with
    | list tokens =>
      rw [hf] at hzero hfeatures
      dsimp only at hzero ⊢
      cases hnull : (member "label" entries).isNull with
      | true => exact .dropped _
      | false =>
        rw [hnull] at hzero
        cases hfeatures with
        | list htokens => exact .labelled tokens _ rfl (by rw [example?, hzero]; rfl) htokens hlabel hnull
    | _ => exact .dropped _
  | _ => exact .dropped _

theorem reading (n : Nat) (line : List Char) : Reading line (verdict line) (readLine n line) := by
  unfold readLine verdict
  by_cases hblank : line.all Text.isBlank
  · rw [if_pos hblank, if_pos hblank]
    exact .blank
  · rw [if_neg hblank, if_neg hblank]
    cases hread : Json.read line with
    | ok d => exact reading_ofDatum n (Bool.eq_false_iff.mpr hblank) hread
    | error refusal =>
      cases refusal with
      | malformed cause offset => exact .malformed _
      | tooManyDigits count => exact .tooManyDigits count

theorem exists_example {line : List Char} (h : verdict line = .learned) : ∃ e, example? line = some e := by
  have hread := reading 0 line
  rw [h] at hread
  generalize readLine 0 line = x at hread
  cases hread with
  | labelled tokens label _ hexample => exact ⟨_, hexample⟩

section
variable {line : List Char} {ls : List (List Char)}

theorem examples_cons_of_ne (h : verdict line ≠ .learned) :
    examples (line :: ls) = examples ls := by
  rw [examples, List.filter_cons_of_neg (by simpa using h), examples]

theorem examples_cons_of_learned {e : List Datum × Datum} (h : verdict line = .learned)
    (he : example? line = some e) : examples (line :: ls) = e :: examples ls := by
  rw [examples, List.filter_cons_of_pos (by simpa using h), List.filterMap_cons_some he, examples]

theorem length_examples (ls : List (List Char)) :
    (examples ls).length = ls.countP fun line => verdict line = .learned := by
  induction ls with
  | nil => rfl
  | cons line ls ih =>
    by_cases h : verdict line = .learned
    · obtain ⟨e, he⟩ := exists_example h
      rw [examples_cons_of_learned h he, List.countP_cons_of_pos (by simpa using h), List.length_cons, ih]
    · rw [examples_cons_of_ne h, List.countP_cons_of_neg (by simpa using h), ih]

end

end Trace

end OnlineLearning
