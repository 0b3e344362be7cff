import OnlineLearning.Proofs.Replay.Standing

/-!
# The accepted examples of a trace

A trace is loaded without a look into its examples; which of them can be learned only shows when they are
read. The loaded examples that can be read are the examples of the lines with the verdict `learned`, if
nothing ends the replay of the trace (`accepted_eq`).
-/

namespace OnlineLearning.Trace

/-- Whether an example can be read. -/
def isReadable (e : List Datum × Datum) : Bool := (Learner.readExample (.list e.1) e.2).isOk

/-- The examples that are loaded from a trace and can be read. -/
def accepted (skipMalformed : Bool) (text : String) : List (List Datum × Datum) :=
  (load skipMalformed text).examples.filter isReadable

section
variable {tokens : List Datum} {label : Datum} (htokens : ∀ t ∈ tokens, Json.Value t)
include htokens

theorem isReadable_of_learned (hlabel : Json.Value label) (hnull : label.isNull = false)
    (h : exampleVerdict tokens label = .learned) : isReadable (tokens, label) = true := by
  obtain ⟨key, cs, hread⟩ := Replay.Progress.exists_readExample htokens hlabel hnull h
  rw [isReadable, hread]
  rfl

theorem isReadable_of_skipped (hnull : label.isNull = false) (h : exampleVerdict tokens label = .skipped) :
    isReadable (tokens, label) = false := by
  unfold exampleVerdict at h
  split at h
  · rename_i hany
    obtain ⟨token, htoken⟩ := Feature.ofTokenList_of_any_isMalformed htokens hany
    have hread : Learner.readExample (.list tokens) label = .error (.badFeature token) := by
      unfold Learner.readExample
      rw [hnull]
      show Feature.ofTokenList tokens >>= _ = _
      rw [htoken]
      rfl
    rw [isReadable, hread]
    rfl
  · split at h <;> cases h

end

namespace Loaded
variable (skipMalformed : Bool) (n : Nat) {l : Loaded} {line : List Char} {ls : List (List Char)}

/-- The readable examples among those that are loaded. -/
def readable (l : Loaded) : List (List Datum × Datum) := l.examples.filter isReadable

theorem takeLine_eq (hl : l.fault? = none) : l.takeLine skipMalformed (line, n) =
    match readLine n line with
    | .error e => { l with fault? := some e }
    | .ok .blank => l
    | .ok (.labelled tokens label) => { l with examples := l.examples ++ [(tokens, label)] }
    | .ok (.dropped notice) => { l with notices := l.notices ++ [notice] }
    | .ok (.malformed e) =>
      if skipMalformed then { l with skipped := l.skipped ++ [(n, e)] } else { l with fault? := some e } := by
  rw [takeLine, hl]
  rfl

theorem takeLine_of_learned (hl : l.fault? = none) (h : verdict line = .learned) :
    ∃ e, example? line = some e ∧ (l.takeLine skipMalformed (line, n)).fault? = none ∧
      (l.takeLine skipMalformed (line, n)).readable = l.readable ++ [e] := by
  have hreading := reading n line
  rw [h] at hreading
  rw [takeLine_eq skipMalformed n hl]
  generalize readLine n line = x at hreading
  cases hreading with
  | labelled tokens label hv hexample htokens hlabel hnull =>
    refine ⟨(tokens, label), hexample, hl, ?_⟩
    have hreadable : isReadable (tokens, label) = true := isReadable_of_learned htokens hlabel hnull hv
    show (l.examples ++ [(tokens, label)]).filter isReadable = _
    rw [List.filter_append, List.filter_cons_of_pos hreadable, List.filter_nil, readable]

/-- A line that is passed over or skipped adds no readable example. -/
theorem takeLine_of_ne_learned (hl : l.fault? = none) (hlearned : verdict line ≠ .learned)
    (hends : verdict line ≠ .ends) (hskip : skipMalformed = true ∨ verdict line ≠ .skipped) :
    (l.takeLine skipMalformed (line, n)).fault? = none ∧
      (l.takeLine skipMalformed (line, n)).readable = l.readable := by
  have hreading := reading n line
  rw [takeLine_eq skipMalformed n hl]
  generalize hv : verdict line = v at hreading hlearned hends hskip
  generalize readLine n line = x at hreading
  cases hreading with
  | tooManyDigits count => exact absurd rfl hends
  | blank => exact ⟨hl, rfl⟩
  | dropped notice => exact ⟨hl, rfl⟩
  | malformed e =>
    rw [hskip.resolve_right fun h => h rfl]
    exact ⟨hl, rfl⟩
  | labelled tokens label hexampleVerdict hexample htokens hlabel hnull =>
    refine ⟨hl, ?_⟩
    have hskipped : exampleVerdict tokens label = .skipped := by
      rw [hexampleVerdict]
      cases v with
      | passed => exact absurd hexampleVerdict (exampleVerdict_ne_passed tokens label)
      | learned => exact absurd rfl hlearned
      | ends => exact absurd rfl hends
      | skipped => rfl
    have hunreadable : isReadable (tokens, label) = false := isReadable_of_skipped htokens hnull hskipped
    show (l.examples ++ [(tokens, label)]).filter isReadable = _
    rw [List.filter_append, List.filter_cons_of_neg (Bool.eq_false_iff.mp hunreadable), List.filter_nil,
      List.append_nil, readable]

theorem readable_foldl (hl : l.fault? = none) (hends : ∀ line ∈ ls, verdict line ≠ .ends)
    (hskip : skipMalformed = true ∨ ∀ line ∈ ls, verdict line ≠ .skipped) :
    ((ls.zipIdx n).foldl (takeLine skipMalformed) l).readable = l.readable ++ Trace.examples ls := by
  induction ls generalizing n l with
  | nil => exact (List.append_nil _).symm
  | cons line ls ih =>
    obtain ⟨hline, hends⟩ := List.forall_mem_cons.mp hends
    have hskipLine : skipMalformed = true ∨ verdict line ≠ .skipped :=
      hskip.imp_right fun h => h line (List.mem_cons_self ..)
    have hskip : skipMalformed = true ∨ ∀ line ∈ ls, verdict line ≠ .skipped :=
      hskip.imp_right fun h l hl => h l (List.mem_cons_of_mem _ hl)
    rw [List.zipIdx_cons, List.foldl_cons]
    by_cases hv : verdict line = .learned
    · obtain ⟨e, he, hsound, hreadable⟩ := takeLine_of_learned skipMalformed n hl hv
      rw [ih (n + 1) hsound hends hskip, hreadable, examples_cons_of_learned hv he, List.append_assoc,
        List.singleton_append]
    · obtain ⟨hsound, hreadable⟩ := takeLine_of_ne_learned skipMalformed n hl hv hline hskipLine
      rw [ih (n + 1) hsound hends hskip, hreadable, examples_cons_of_ne hv]

end Loaded

theorem accepted_eq {skipMalformed : Bool} {text : String}
    (hends : ∀ line ∈ Text.lines text.toList, verdict line ≠ .ends)
    (hskip : skipMalformed = true ∨ ∀ line ∈ Text.lines text.toList, verdict line ≠ .skipped) :
    accepted skipMalformed text = examples (Text.lines text.toList) :=
  Loaded.readable_foldl skipMalformed 1 (l := {}) rfl hends hskip

end OnlineLearning.Trace
