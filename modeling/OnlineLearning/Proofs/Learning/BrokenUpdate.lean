import OnlineLearning.Proofs.Learning.Extension

/-!
# Updates that break off

An update on request checks its labels and its tokens before it writes, but not whether they can be keys. A
label is refused when it is looked up, which is in time. The rival is looked up when the label is known
already, and the key of each feature when those before it are written; a fault there leaves the update half done
(`update_fault_iff`).
-/

namespace OnlineLearning

namespace Feature
variable {fs : List Feature} {cs : List Coordinate} {e : Fault}

/-- The features up to a key that cannot be one. -/
theorem coordinates_eq_some_iff : coordinates fs = (cs, some e) ↔
    ∃ before f after, fs = before ++ f :: after ∧ coordinates before = (cs, none) ∧ f.key.toKey = .error e := by
  induction fs generalizing cs with
  | nil => simp [coordinates]
  | cons f fs ih =>
    simp only [List.cons_eq_append_iff]
    cases hkey : f.key.toKey with
    | error e' =>
      rw [coordinates_cons_of_error _ hkey]
      constructor
      · rintro ⟨⟩
        exact ⟨[], f, fs, .inl ⟨rfl, rfl⟩, rfl, hkey⟩
      · rintro ⟨before, g, after, ⟨rfl, hfs⟩ | ⟨before, rfl, -⟩, hbefore, hg⟩
        · obtain ⟨rfl, -⟩ := List.cons.inj hfs
          cases hbefore
          rw [Except.error.inj (hkey.symm.trans hg)]
        · rw [coordinates_cons_of_error _ hkey] at hbefore
          cases hbefore
    | ok key =>
      rw [coordinates_cons_of_ok _ hkey]
      constructor
      · intro h
        obtain ⟨rfl, hfault⟩ := Prod.mk.inj h
        obtain ⟨before, g, after, rfl, hbefore, hg⟩ := ih.mp (Prod.ext rfl hfault)
        exact ⟨f :: before, g, after, .inr ⟨before, rfl, rfl⟩, by rw [coordinates_cons_of_ok _ hkey, hbefore], hg⟩
      · rintro ⟨before, g, after, ⟨rfl, hfs⟩ | ⟨before, rfl, rfl⟩, hbefore, hg⟩
        · obtain ⟨rfl, -⟩ := List.cons.inj hfs
          cases hkey.symm.trans hg
        · rw [coordinates_cons_of_ok _ hkey] at hbefore
          obtain ⟨rfl, hnone⟩ := Prod.mk.inj hbefore
          rw [ih.mpr ⟨before, g, after, rfl, Prod.ext rfl hnone, hg⟩]

end Feature

namespace Registry

/-- The rival of an update as a key; a null one is none. -/
def rivalKey? (rival : Datum) : Except Fault (Option Key) := if rival.isNull then .ok none else some <$> rival.toKey

/-- What an update has checked before it writes, and the features and the key that it has then. -/
structure Checked (tokens label rival : Datum) (fs : List Feature) (key : Key) : Prop where
  label_known : label.isNull = false
  distinct : label.equals rival = false
  features : Feature.ofTokens tokens = .ok fs
  label_key : label.toKey = .ok key

/-- Where an update fails before it writes. -/
inductive RefusesUpdate (tokens label rival : Datum) : Fault → Prop where
  | label (h : label.isNull = true) : RefusesUpdate tokens label rival .noActualLabel
  | rival (hlabel : label.isNull = false) (h : label.equals rival = true) :
    RefusesUpdate tokens label rival (.sameLabels label)
  | tokens {e : Fault} (hlabel : label.isNull = false) (hrival : label.equals rival = false)
    (h : Feature.ofTokens tokens = .error e) : RefusesUpdate tokens label rival e
  | key {e : Fault} {fs : List Feature} (hlabel : label.isNull = false) (hrival : label.equals rival = false)
    (hfs : Feature.ofTokens tokens = .ok fs) (h : label.toKey = .error e) : RefusesUpdate tokens label rival e

/-- Where an update fails while it writes, and what it leaves behind. -/
inductive BreaksOff (r : Registry) (tokens : Datum) (step phi : Double) (label rival : Datum) :
    Registry → Fault → Prop where
  /-- The rival cannot be a key: the label is known. -/
  | rival {fs : List Feature} {key : Key} {e : Fault} (hchecked : Checked tokens label rival fs key)
    (h : rivalKey? rival = .error e) : BreaksOff r tokens step phi label rival (r.create key) e
  /-- The key of a feature cannot be one: the features before it are written. -/
  | feature {before after : List Feature} {f : Feature} {key : Key} {rivalKey : Option Key} {cs : List Coordinate}
    {e : Fault} (hchecked : Checked tokens label rival (before ++ f :: after) key)
    (hrival : rivalKey? rival = .ok rivalKey) (hbefore : Feature.coordinates before = (cs, none))
    (h : f.key.toKey = .error e) :
    BreaksOff r tokens step phi label rival (r.step step.narrow phi.narrow key rivalKey cs).1 e

variable {r r' : Registry} {tokens label rival : Datum} {step phi : Double} {fs : List Feature} {key : Key} {e : Fault}

theorem RefusesUpdate.update_eq (h : RefusesUpdate tokens label rival e) (r : Registry) (step phi : Double) :
    r.update tokens step phi label rival = ⟨.error e, r, []⟩ := by
  unfold update
  cases h with
  | label h => rw [if_pos h]
  | rival hlabel h => rw [hlabel, if_neg Bool.noConfusion, if_pos h]
  | tokens hlabel hrival h => rw [hlabel, if_neg Bool.noConfusion, hrival, if_neg Bool.noConfusion, h]
  | key hlabel hrival hfs h => rw [hlabel, if_neg Bool.noConfusion, hrival, if_neg Bool.noConfusion, hfs, h]

theorem refusesUpdate_or_checked (tokens label rival : Datum) :
    (∃ e, RefusesUpdate tokens label rival e) ∨ ∃ fs key, Checked tokens label rival fs key := by
  cases hlabel : label.isNull with
  | true => exact .inl ⟨_, .label hlabel⟩
  | false =>
    cases hrival : label.equals rival with
    | true => exact .inl ⟨_, .rival hlabel hrival⟩
    | false =>
      cases hfs : Feature.ofTokens tokens with
      | error e => exact .inl ⟨e, .tokens hlabel hrival hfs⟩
      | ok fs =>
        cases hkey : label.toKey with
        | error e => exact .inl ⟨e, .key hlabel hrival hfs hkey⟩
        | ok key => exact .inr ⟨fs, key, hlabel, hrival, hfs, hkey⟩

theorem Checked.update_eq (h : Checked tokens label rival fs key) (r : Registry) (step phi : Double) :
    r.update tokens step phi label rival =
      match rivalKey? rival with
      | .error e => ⟨.error e, r.create key, []⟩
      | .ok rivalKey => r.stepFeatures step.narrow phi.narrow key rivalKey fs := by
  unfold update rivalKey?
  rw [h.label_known, if_neg Bool.noConfusion, h.distinct, if_neg Bool.noConfusion, h.features, h.label_key]
  cases hnull : rival.isNull with
  | true => rfl
  | false => cases hkey : rival.toKey <;> rfl

theorem Checked.breaksOff (h : Checked tokens label rival fs key)
    (hresult : (r.update tokens step phi label rival).result = .error e) :
    BreaksOff r tokens step phi label rival (r.update tokens step phi label rival).registry e := by
  rw [h.update_eq] at hresult ⊢
  cases hrival : rivalKey? rival with
  | error e' =>
    rw [hrival] at hresult
    obtain rfl := Except.error.inj hresult
    exact .rival h hrival
  | ok rivalKey =>
    rw [hrival] at hresult
    unfold stepFeatures at hresult ⊢
    rcases hcs : Feature.coordinates fs with ⟨cs, _ | e'⟩
    · rw [hcs] at hresult
      cases hresult
    · rw [hcs] at hresult
      obtain rfl := Except.error.inj hresult
      obtain ⟨before, f, after, rfl, hbefore, hf⟩ := Feature.coordinates_eq_some_iff.mp hcs
      exact .feature h hrival hbefore hf

namespace BreaksOff

theorem update_eq (h : BreaksOff r tokens step phi label rival r' e) :
    (r.update tokens step phi label rival).result = .error e ∧
      (r.update tokens step phi label rival).registry = r' := by
  cases h with
  | rival hchecked hrival =>
    rw [hchecked.update_eq, hrival]
    exact ⟨rfl, rfl⟩
  | @feature before after f key rivalKey cs _ hchecked hrival hbefore hf =>
    have hcs : Feature.coordinates (before ++ f :: after) = (cs, some e) :=
      Feature.coordinates_eq_some_iff.mpr ⟨before, f, after, rfl, hbefore, hf⟩
    rw [hchecked.update_eq, hrival]
    unfold stepFeatures
    rw [hcs]
    exact ⟨rfl, rfl⟩

theorem contains_label (h : BreaksOff r tokens step phi label rival r' e) :
    ∃ key, label.toKey = .ok key ∧ r'.contains key = true := by
  cases h with
  | rival hchecked hrival => exact ⟨_, hchecked.label_key, contains_create ..⟩
  | feature hchecked hrival hbefore hf => exact ⟨_, hchecked.label_key, (written_step ..).contains⟩

theorem unusable (h : BreaksOff r tokens step phi label rival r' e) :
    rivalKey? rival = .error e ∨ ∃ fs, Feature.ofTokens tokens = .ok fs ∧ ∃ f ∈ fs, f.key.toKey = .error e := by
  cases h with
  | rival hchecked hrival => exact .inl hrival
  | feature hchecked hrival hbefore hf => exact .inr ⟨_, hchecked.features, _, by simp, hf⟩

end BreaksOff

/-- An update that fails is refused before it writes, or it breaks off at a rival or a feature without a usable
key. Then the label has become known, if it was not, and the features before the fault are written. -/
theorem update_fault_iff (r : Registry) (tokens : Datum) (step phi : Double) (label rival : Datum) :
    (∀ e r', (r.update tokens step phi label rival).result = .error e ∧
        (r.update tokens step phi label rival).registry = r' ↔
      RefusesUpdate tokens label rival e ∧ r' = r ∨ BreaksOff r tokens step phi label rival r' e) ∧
      (∀ e r', BreaksOff r tokens step phi label rival r' e →
        (∃ key, label.toKey = .ok key ∧ r'.contains key = true) ∧
          (rivalKey? rival = .error e ∨
            ∃ fs, Feature.ofTokens tokens = .ok fs ∧ ∃ f ∈ fs, f.key.toKey = .error e)) := by
  refine ⟨fun e r' => ⟨?_, ?_⟩, fun e r' h => ⟨h.contains_label, h.unusable⟩⟩
  · rintro ⟨hresult, rfl⟩
    rcases refusesUpdate_or_checked tokens label rival with ⟨e', hrefuses⟩ | ⟨fs, key, hchecked⟩
    · rw [hrefuses.update_eq] at hresult ⊢
      obtain rfl := Except.error.inj hresult
      exact .inl ⟨hrefuses, rfl⟩
    · exact .inr (hchecked.breaksOff hresult)
  · rintro (⟨hrefuses, rfl⟩ | hbreaks)
    · rw [hrefuses.update_eq]
      exact ⟨rfl, rfl⟩
    · exact hbreaks.update_eq

/-- A token that passes as a feature, although its key holds a list, behind one that is written. -/
def unusableKeyTokens : Datum := .list [.text "f", .tuple [.tuple [.list []], .float 2 0]]

theorem update_writes_before_fault :
    (empty.update unusableKeyTokens 1 1 (.text "A") .null).result = .error (.notAKey .list) ∧
      (empty.update unusableKeyTokens 1 1 (.text "A") .null).registry.weightCount = 1 := by
  have hchecked : Checked unusableKeyTokens (.text "A") .null
      ([⟨.text "f", 1⟩] ++ ⟨.tuple [.list []], 2⟩ :: []) ⟨.text "A", rfl⟩ := ⟨rfl, rfl, rfl, rfl⟩
  have hbreaks : BreaksOff empty unusableKeyTokens 1 1 (.text "A") .null _ (.notAKey .list) :=
    .feature hchecked rfl rfl rfl
  obtain ⟨hresult, hregistry⟩ := ((update_fault_iff ..).1 _ _).mpr (.inr hbreaks)
  refine ⟨hresult, ?_⟩
  rw [hregistry]
  decide +kernel

/-- A rival that cannot be a key leaves the label behind. -/
theorem update_creates_label_of_fault :
    (empty.update (.list [.text "f"]) 1 1 (.text "A") (.list [.text "x"])).result = .error (.notAKey .list) ∧
      empty.size = 0 ∧ (empty.update (.list [.text "f"]) 1 1 (.text "A") (.list [.text "x"])).registry.size = 1 :=
  ⟨rfl, rfl, rfl⟩

end Registry

end OnlineLearning
