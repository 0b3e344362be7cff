import OnlineLearning.Proofs.Learning.Training
import OnlineLearning.Proofs.Trace.Verdict

/-!
# Tokens that are read from a text

Of the faults that a token can be, a token of a text can only be a malformed one: conversions that
are faults of another sort need a pair, and the keys that can be none need a container. So the
tokens of an example are either all usable as features, or fail as an invalid argument. The keys of
the features are scalars (`scalar_of_ofTokenList`).
-/

namespace OnlineLearning

namespace Feature
variable {token : Datum} {tokens : List Datum}

/-- What a token of a text can be read as. -/
inductive Outcome (token : Datum) : Except Fault (Option Feature) → Prop where
  | dropped : Outcome token (.ok none)
  | usable (f : Feature) (h : Json.Scalar f.key) : Outcome token (.ok (some f))
  | malformed : Outcome token (.error (.badFeature token))

theorem valueIn_text (token : Datum) (s : CodePoints) :
    (∃ x, valueIn token (.text s) = .ok x) ∨ valueIn token (.text s) = .error (refusal token) := by
  rw [valueIn, Datum.toFloat]
  cases s.chars?.bind Number.read? with
  | some x => exact .inl ⟨x, rfl⟩
  | none => exact .inr rfl

theorem outcome_refusal (h : Json.Value token) : Outcome token (.error (refusal token)) := by
  rw [refusal, if_pos h.hindrance?]
  exact .malformed

theorem outcome_ofText (s : CodePoints) : Outcome (.text s) (some <$> ofText s) := by
  have hmalformed := outcome_refusal (.text s)
  unfold ofText
  split
  · split
    · exact hmalformed
    · exact .usable _ (.text s)
  · rename_i name value _
    split
    · exact hmalformed
    · obtain ⟨x, hx⟩ | hx := valueIn_text (.text s) value
      · rw [hx]
        exact .usable ⟨.text name, x⟩ (.text _)
      · rw [hx]
        exact hmalformed
  · exact hmalformed

theorem outcome_ofToken (h : Json.Value token) : Outcome token (ofToken token) := by
  cases h with
  | null => exact .dropped
  | text s => exact outcome_ofText s
  | list h => exact outcome_refusal (.list h)
  | dict hnames h => exact outcome_refusal (.dict hnames h)
  | bool _ | int _ | float _ => exact .usable _ (by constructor)

theorem isMalformed_eq_false {feature? : Option Feature} (h : ofToken token = .ok feature?) :
    isMalformed token = false := by
  rw [isMalformed, h]

theorem isMalformed_eq_true {e : Fault} (h : ofToken token = .error e) : isMalformed token = true := by
  rw [isMalformed, h]

theorem ofTokenList_of_any_isMalformed (h : ∀ t ∈ tokens, Json.Value t)
    (hany : tokens.any isMalformed = true) : ∃ token, ofTokenList tokens = .error (.badFeature token) := by
  induction tokens with
  | nil => cases hany
  | cons t ts ih =>
    obtain ⟨ht, hts⟩ := List.forall_mem_cons.mp h
    have hout := outcome_ofToken ht
    rw [ofTokenList]
    cases hread : ofToken t with
    | error e =>
      rw [hread] at hout
      cases hout
      exact ⟨t, rfl⟩
    | ok feature? =>
      rw [List.any_cons, isMalformed_eq_false hread, Bool.false_or] at hany
      obtain ⟨token, htoken⟩ := ih hts hany
      exact ⟨token, by rw [htoken]; rfl⟩

theorem toCoordinates_cons {f : Feature} {fs : List Feature} {cs : List Coordinate}
    (hf : f.key.mutablePart? = none) (hcs : toCoordinates fs = .ok cs) :
    toCoordinates (f :: fs) = .ok (⟨⟨f.key, hf⟩, f.value⟩ :: cs) := by
  have hkey : f.key.toKey = .ok ⟨f.key, hf⟩ := Datum.toKey_eq_ok_iff.mpr rfl
  rw [toCoordinates, coordinates, hkey, coordinates_of_toCoordinates hcs]

theorem ofTokenList_of_not_any_isMalformed (h : ∀ t ∈ tokens, Json.Value t)
    (hany : tokens.any isMalformed = false) :
    ∃ fs cs, ofTokenList tokens = .ok fs ∧ toCoordinates fs = .ok cs := by
  induction tokens with
  | nil => exact ⟨[], [], rfl, rfl⟩
  | cons t ts ih =>
    obtain ⟨ht, hts⟩ := List.forall_mem_cons.mp h
    obtain ⟨hgood, hany⟩ := by simpa using hany
    obtain ⟨fs, cs, hfs, hcs⟩ := ih hts (by simpa using hany)
    have hout := outcome_ofToken ht
    rw [ofTokenList, hfs]
    cases hread : ofToken t with
    | error e =>
      rw [isMalformed_eq_true hread] at hgood
      cases hgood
    | ok feature? =>
      rw [hread] at hout
      cases hout with
      | dropped => exact ⟨fs, cs, rfl, hcs⟩
      | usable f hf => exact ⟨f :: fs, _, rfl, toCoordinates_cons hf.mutablePart? hcs⟩

theorem exists_of_mem_ofTokenList {fs : List Feature} {f : Feature} (hfs : ofTokenList tokens = .ok fs) (hf : f ∈ fs) :
    ∃ t ∈ tokens, ofToken t = .ok (some f) := by
  induction tokens generalizing fs with
  | nil =>
    cases hfs
    cases hf
  | cons t ts ih =>
    obtain ⟨feature?, hfeature, hfs⟩ := exists_of_bind_eq_ok hfs
    obtain ⟨rest, hrest, hfs⟩ := exists_of_bind_eq_ok hfs
    cases hfs
    rcases List.mem_append.mp hf with hf | hf
    · rw [Option.mem_toList.mp hf] at hfeature
      exact ⟨t, List.mem_cons_self .., hfeature⟩
    · obtain ⟨u, hu, hread⟩ := ih hrest hf
      exact ⟨u, List.mem_cons_of_mem t hu, hread⟩

/-- The features that are read from tokens of a text have scalars for keys. -/
theorem scalar_of_ofTokenList {fs : List Feature} (h : ∀ t ∈ tokens, Json.Value t) (hfs : ofTokenList tokens = .ok fs) :
    ∀ f ∈ fs, Json.Scalar f.key := by
  intro f hf
  obtain ⟨t, ht, hread⟩ := exists_of_mem_ofTokenList hfs hf
  have hout := outcome_ofToken (h t ht)
  rw [hread] at hout
  cases hout with
  | usable _ hscalar => exact hscalar

theorem exists_of_mem_coordinates {fs : List Feature} {cs : List Coordinate} (hcs : toCoordinates fs = .ok cs)
    {c : Coordinate} (hc : c ∈ cs) : ∃ f ∈ fs, c.key.datum = f.key ∧ c.value = f.value := by
  induction fs generalizing cs with
  | nil =>
    cases hcs
    cases hc
  | cons f fs ih =>
    obtain ⟨key, cs', hkey, hcs', rfl⟩ := coordinates_cons_of_toCoordinates hcs
    rcases List.mem_cons.mp hc with rfl | hc
    · exact ⟨f, List.mem_cons_self .., Datum.toKey_eq_ok_iff.mp hkey, rfl⟩
    · obtain ⟨g, hg, hkeys⟩ := ih hcs' hc
      exact ⟨g, List.mem_cons_of_mem _ hg, hkeys⟩

end Feature

end OnlineLearning
