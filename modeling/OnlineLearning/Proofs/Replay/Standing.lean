import OnlineLearning.Proofs.Learning.Writes
import OnlineLearning.Proofs.Trace.Tokens
import OnlineLearning.Replay.Progress

/-!
# Where a replay stands after a trace

A replay does what the verdicts on the lines of its trace say. Each learned line is studied, each
skipped one is counted and leaves no other mark, and where a line ends the replay there is a fault:
`stands_foldl` and `isSome_fault?_foldl`. Both are inductions on the lines, a step for each verdict;
the numbers of the lines only show in notices.
-/

namespace OnlineLearning

/-- The model of a learner after examples, one after another. -/
def Learner.trained (learner : Learner) (es : List (List Datum × Datum)) : Registry :=
  Registry.empty.afterAll (es.map fun e => .train learner (.list e.1) e.2)

namespace Replay

/-- Whether the label of an example was predicted. -/
def guessed (r : Registry) (tokens : List Datum) (label : Datum) : Bool :=
  match r.predictTokens (.list tokens) with
  | .ok predicted => predicted.any fun k => k.datum.equals label
  | .error _ => false

/-- Whether learning an example changed the model. -/
def changed (outcome : Outcome Bool) : Bool :=
  match outcome.result with
  | .ok b => b
  | .error _ => false

/-- A model and its tally after an example that is learned. -/
def study (learner : Learner) (s : Registry × Tally) (e : List Datum × Datum) : Registry × Tally :=
  let outcome := learner.train s.1 (.list e.1) e.2
  (outcome.registry, s.2.learned (guessed s.1 e.1 e.2) (changed outcome))

/-- A model and its tally after examples that are learned one after another. -/
def studyAll (learner : Learner) (s : Registry × Tally) (es : List (List Datum × Datum)) :
    Registry × Tally := es.foldl (study learner) s

/-- A tally with so many more skipped lines. -/
def Tally.skipMany (t : Tally) (n : Nat) : Tally := { t with skipped := t.skipped + n }

@[simp] theorem Tally.total_skipMany (t : Tally) (n : Nat) : (t.skipMany n).total = t.total := rfl

@[simp] theorem Tally.correct_skipMany (t : Tally) (n : Nat) : (t.skipMany n).correct = t.correct := rfl

@[simp] theorem Tally.updates_skipMany (t : Tally) (n : Nat) : (t.skipMany n).updates = t.updates := rfl

@[simp] theorem Tally.skipped_skipMany (t : Tally) (n : Nat) : (t.skipMany n).skipped = t.skipped + n := rfl

theorem Tally.skip_skipMany (t : Tally) (n : Nat) : t.skip.skipMany n = t.skipMany (n + 1) := by
  rw [skipMany, skipMany, skip, Nat.add_assoc, Nat.add_comm 1 n]

theorem registry_studyAll (learner : Learner) (s : Registry × Tally) (es : List (List Datum × Datum)) :
    (studyAll learner s es).1 = s.1.afterAll (es.map fun e => .train learner (.list e.1) e.2) := by
  induction es generalizing s with
  | nil => rfl
  | cons e es ih => exact ih (study learner s e)

theorem studyAll_skip (learner : Learner) (s : Registry × Tally) (es : List (List Datum × Datum)) :
    studyAll learner (s.1, s.2.skip) es =
      ((studyAll learner s es).1, (studyAll learner s es).2.skip) := by
  unfold studyAll
  induction es generalizing s with
  | nil => rfl
  | cons e es ih => exact ih (study learner s e)

theorem total_studyAll (learner : Learner) (s : Registry × Tally) (es : List (List Datum × Datum)) :
    (studyAll learner s es).2.total = s.2.total + es.length ∧
      (studyAll learner s es).2.skipped = s.2.skipped := by
  unfold studyAll
  induction es generalizing s with
  | nil => exact ⟨rfl, rfl⟩
  | cons e es ih =>
    obtain ⟨htotal, hskipped⟩ := ih (study learner s e)
    refine ⟨?_, hskipped⟩
    rw [List.foldl_cons, htotal, List.length_cons]
    show s.2.total + 1 + es.length = s.2.total + (es.length + 1)
    omega

namespace Progress
variable (learner : Learner) (skipInvalid : Bool) (n : Nat) {p : Progress} {s : Registry × Tally}
  {tokens : List Datum} {label : Datum} {line : List Char} {ls : List (List Char)}

/-- A replay goes on with a model and a tally. -/
structure Stands (p : Progress) (s : Registry × Tally) : Prop where
  sound : p.fault? = none
  registry : p.registry = s.1
  tally : p.tally = s.2

/-! ### One example -/

theorem predictTokens_eq_ok (r : Registry) {fs : List Feature} {cs : List Coordinate}
    (hfs : Feature.ofTokens (.list tokens) = .ok fs) (hcs : Feature.toCoordinates fs = .ok cs) :
    ∃ predicted, r.predictTokens (.list tokens) = .ok predicted := by
  rw [Registry.predictTokens, hfs]
  show ∃ predicted, r.predictFeatures fs = .ok predicted
  unfold Registry.predictFeatures
  split
  · exact ⟨_, rfl⟩
  · exact ⟨_, by rw [hcs]; rfl⟩

theorem train_eq_error (r : Registry) {fs : List Feature} (hnull : label.isNull = false)
    (hfs : Feature.ofTokens (.list tokens) = .ok fs) (hmutable : label.kind.isMutable = true) :
    (learner.train r (.list tokens) label).result = .error (.notAKey label.kind) := by
  have hkey : label.toKey = .error (.notAKey label.kind) := by
    cases label with
    | list _ | dict _ => rfl
    | _ => cases hmutable
  have hread : Learner.readExample (.list tokens) label = .error (.notAKey label.kind) := by
    unfold Learner.readExample
    rw [hnull, hfs, hkey]
    rfl
  rw [Learner.train, hread]

section
variable (htokens : ∀ t ∈ tokens, Json.Value t) (hlabel : Json.Value label) (hnull : label.isNull = false)
include htokens

theorem takeExample_of_skipped {p : Progress} (h : Trace.exampleVerdict tokens label = .skipped) :
    ∃ e, e.kind = .invalidArgument ∧
      p.takeExample learner skipInvalid tokens label = p.takeFaulty skipInvalid e := by
  unfold Trace.exampleVerdict at h
  split at h
  · rename_i hany
    obtain ⟨token, htoken⟩ := Feature.ofTokenList_of_any_isMalformed htokens hany
    have hpredict : p.registry.predictTokens (.list tokens) = .error (.badFeature token) := by
      show Feature.ofTokenList tokens >>= p.registry.predictFeatures = _
      rw [htoken]
      rfl
    exact ⟨.badFeature token, rfl, by rw [takeExample, hpredict]⟩
  · split at h <;> cases h

include hlabel hnull

theorem exists_readExample (h : Trace.exampleVerdict tokens label = .learned) :
    ∃ key cs, Learner.readExample (.list tokens) label = .ok (key, cs) := by
  unfold Trace.exampleVerdict at h
  split at h
  · cases h
  rename_i hany
  split at h
  · cases h
  rename_i hmutable
  obtain ⟨fs, cs, hfs, hcs⟩ := Feature.ofTokenList_of_not_any_isMalformed htokens (Bool.eq_false_iff.mpr hany)
  obtain ⟨key, hkey⟩ : ∃ key, label.toKey = .ok key :=
    ⟨⟨label, hlabel.mutablePart? (Bool.eq_false_iff.mpr hmutable)⟩, Datum.toKey_eq_ok_iff.mpr rfl⟩
  exact ⟨key, cs, Learner.readExample_eq_ok hnull hfs hkey hcs⟩

theorem takeExample_of_learned (hp : p.Stands s) (h : Trace.exampleVerdict tokens label = .learned) :
    (p.takeExample learner skipInvalid tokens label).Stands (study learner s (tokens, label)) := by
  obtain ⟨key, cs, hread⟩ := exists_readExample htokens hlabel hnull h
  obtain ⟨-, -, fs, hfs, hcs⟩ := Learner.exists_of_readExample hread
  obtain ⟨predicted, hpredicted⟩ := predictTokens_eq_ok p.registry hfs hcs
  have hresult := learner.result_train hread p.registry
  rw [takeExample, hpredicted]
  dsimp only
  rw [hresult]
  rw [hp.registry] at hpredicted hresult
  refine ⟨hp.sound, ?_, ?_⟩
  · rw [study, hp.registry]
  · rw [study, guessed, changed, hpredicted, hresult, hp.tally, hp.registry]

omit hlabel in
theorem takeExample_of_ends (h : Trace.exampleVerdict tokens label = .ends) :
    (p.takeExample learner skipInvalid tokens label).fault?.isSome = true := by
  unfold Trace.exampleVerdict at h
  split at h
  · cases h
  rename_i hany
  split at h
  · rename_i hmutable
    obtain ⟨fs, cs, hfs, hcs⟩ := Feature.ofTokenList_of_not_any_isMalformed htokens (Bool.eq_false_iff.mpr hany)
    obtain ⟨predicted, hpredicted⟩ := predictTokens_eq_ok p.registry hfs hcs
    rw [takeExample, hpredicted]
    dsimp only
    rw [train_eq_error learner p.registry hnull hfs hmutable]
    -- the label is a fault that no replay skips
    have hkind : ¬ (skipInvalid ∧ (Fault.notAKey label.kind).kind = .invalidArgument) := fun h => by cases h.2
    dsimp only
    rw [takeFaulty, if_neg hkind]
    rfl
  · cases h

end

/-! ### One line -/

/-- What a line holds goes with the verdict on it, and a sound replay takes it up. -/
theorem exists_reading {v : Trace.Verdict} (hp : p.fault? = none) (h : Trace.verdict line = v) :
    ∃ x, Trace.Reading line v x ∧ p.takeLine learner skipInvalid (line, n) =
      match x with
      | .error e => { p with fault? := some e }
      | .ok entry => p.takeEntry learner skipInvalid n entry := by
  subst h
  refine ⟨Trace.readLine n line, Trace.reading n line, ?_⟩
  rw [takeLine, hp]
  rfl

theorem takeLine_of_passed (hp : p.Stands s) (h : Trace.verdict line = .passed) :
    (p.takeLine learner skipInvalid (line, n)).Stands s := by
  obtain ⟨x, hread, htake⟩ := exists_reading learner skipInvalid n hp.sound h
  rw [htake]
  cases hread with
  | blank => exact hp
  | dropped notice => exact ⟨hp.sound, hp.registry, hp.tally⟩
  | labelled tokens label hv => exact absurd hv (Trace.exampleVerdict_ne_passed tokens label)

theorem takeLine_of_learned (hp : p.Stands s) (h : Trace.verdict line = .learned) :
    ∃ e, Trace.example? line = some e ∧
      (p.takeLine learner skipInvalid (line, n)).Stands (study learner s e) := by
  obtain ⟨x, hread, htake⟩ := exists_reading learner skipInvalid n hp.sound h
  rw [htake]
  cases hread with
  | labelled tokens label hv hexample htokens hlabel hnull =>
    exact ⟨(tokens, label), hexample, takeExample_of_learned learner skipInvalid htokens hlabel hnull hp hv⟩

theorem takeFaulty_true {e : Fault} (hp : p.Stands s) (he : e.kind = .invalidArgument) :
    (p.takeFaulty true e).Stands (s.1, s.2.skip) := by
  rw [takeFaulty, if_pos ⟨rfl, he⟩]
  exact ⟨hp.sound, hp.registry, congrArg Tally.skip hp.tally⟩

theorem takeLine_of_skipped (hp : p.Stands s) (h : Trace.verdict line = .skipped) :
    (p.takeLine learner true (line, n)).Stands (s.1, s.2.skip) := by
  obtain ⟨x, hread, htake⟩ := exists_reading learner true n hp.sound h
  rw [htake]
  cases hread with
  | malformed e => exact ⟨hp.sound, hp.registry, congrArg Tally.skip hp.tally⟩
  | labelled tokens label hv _ htokens =>
    obtain ⟨e, he, hfaulty⟩ := takeExample_of_skipped learner true htokens hv
    dsimp only [takeEntry]
    rw [hfaulty]
    exact takeFaulty_true hp he

theorem isSome_fault?_takeLine (p : Progress) (n : Nat) (line : List Char) (h : Trace.verdict line = .ends) :
    (p.takeLine learner skipInvalid (line, n)).fault?.isSome = true := by
  cases hp : p.fault? with
  | some e =>
    rw [takeLine, hp]
    exact congrArg Option.isSome hp
  | none =>
    obtain ⟨x, hread, htake⟩ := exists_reading learner skipInvalid n hp h
    rw [htake]
    cases hread with
    | tooManyDigits count => rfl
    | labelled tokens label hv _ htokens _ hnull => exact takeExample_of_ends learner skipInvalid htokens hnull hv

/-- A replay that may not skip stops at what another would skip. -/
theorem isSome_fault?_takeLine_of_skipped (p : Progress) (n : Nat) (line : List Char)
    (h : Trace.verdict line = .skipped) : (p.takeLine learner false (line, n)).fault?.isSome = true := by
  cases hp : p.fault? with
  | some e =>
    rw [takeLine, hp]
    exact congrArg Option.isSome hp
  | none =>
    obtain ⟨x, hread, htake⟩ := exists_reading learner false n hp h
    rw [htake]
    cases hread with
    | malformed e => rfl
    | labelled tokens label hv _ htokens =>
      obtain ⟨e, -, hfaulty⟩ := takeExample_of_skipped learner false htokens hv
      dsimp only [takeEntry]
      rw [hfaulty, takeFaulty, if_neg (fun h => absurd h.1 Bool.false_ne_true)]
      rfl

/-! ### A whole trace -/

theorem takeLine_of_isSome_fault? {numbered : List Char × Nat} (hp : p.fault?.isSome = true) :
    p.takeLine learner skipInvalid numbered = p := if_pos hp

theorem foldl_takeLine_of_isSome_fault? {numbered : List (List Char × Nat)} (hp : p.fault?.isSome = true) :
    numbered.foldl (takeLine learner skipInvalid) p = p := by
  induction numbered with
  | nil => rfl
  | cons line numbered ih => rw [List.foldl_cons, takeLine_of_isSome_fault? learner skipInvalid hp, ih]

theorem isSome_fault?_foldl {v : Trace.Verdict} (h : ∃ line ∈ ls, Trace.verdict line = v)
    (hv : ∀ (p : Progress) n line, Trace.verdict line = v →
      (p.takeLine learner skipInvalid (line, n)).fault?.isSome = true) :
    ((ls.zipIdx n).foldl (takeLine learner skipInvalid) p).fault?.isSome = true := by
  induction ls generalizing p n with
  | nil =>
    obtain ⟨line, hline, -⟩ := h
    exact absurd hline List.not_mem_nil
  | cons line ls ih =>
    rw [List.zipIdx_cons, List.foldl_cons]
    obtain ⟨line', hmem, hline⟩ := h
    rcases List.mem_cons.mp hmem with rfl | hmem
    · have hfault := hv p n line' hline
      rw [foldl_takeLine_of_isSome_fault? learner skipInvalid hfault]
      exact hfault
    · exact ih _ ⟨line', hmem, hline⟩

/-- Where a replay that nothing ends stands after a trace. -/
theorem stands_foldl (hp : p.Stands s) (hends : ∀ line ∈ ls, Trace.verdict line ≠ .ends)
    (hskip : skipInvalid = true ∨ ∀ line ∈ ls, Trace.verdict line ≠ .skipped) :
    ((ls.zipIdx n).foldl (takeLine learner skipInvalid) p).Stands
      ((studyAll learner s (Trace.examples ls)).1,
        (studyAll learner s (Trace.examples ls)).2.skipMany
          (ls.countP fun line => Trace.verdict line = .skipped)) := by
  -- the replay stands with some model and tally before each line; the verdict says which come next
  induction ls generalizing n p s with
  | nil => exact hp
  | cons line ls ih =>
    obtain ⟨hline, hends⟩ := List.forall_mem_cons.mp hends
    have hskip' : skipInvalid = true ∨ ∀ line ∈ ls, Trace.verdict line ≠ .skipped :=
      hskip.imp_right fun h l hl => h l (List.mem_cons_of_mem _ hl)
    rw [List.zipIdx_cons, List.foldl_cons]
    cases hv : Trace.verdict line with
    | passed =>
      rw [Trace.examples_cons_of_ne (by rw [hv]; decide), List.countP_cons_of_neg (by simp [hv])]
      exact ih _ (takeLine_of_passed learner skipInvalid n hp hv) hends hskip'
    | learned =>
      obtain ⟨e, he, hstands⟩ := takeLine_of_learned learner skipInvalid n hp hv
      rw [Trace.examples_cons_of_learned hv he, List.countP_cons_of_neg (by simp [hv])]
      exact ih _ hstands hends hskip'
    | skipped =>
      obtain rfl : skipInvalid = true :=
        hskip.resolve_right fun h => h line (List.mem_cons_self ..) hv
      rw [Trace.examples_cons_of_ne (by rw [hv]; decide), List.countP_cons_of_pos (by simp [hv])]
      -- the line is counted before the rest is studied, and the count comes through
      have hstands := ih (n + 1) (takeLine_of_skipped learner n hp hv) hends hskip'
      rw [studyAll_skip] at hstands
      rw [← Tally.skip_skipMany]
      exact hstands
    | ends => exact absurd hv hline

end Progress

end Replay

end OnlineLearning
