import Mathlib.Algebra.Group.Int.Defs
import OnlineLearning.Feature.Basic
import OnlineLearning.Proofs.Binary.Conversion
import OnlineLearning.Proofs.Datum.Showing
import OnlineLearning.Proofs.Model.Labels

/-!
# Malformed tokens

Reading a token of any kind should end in one of three ways: the null token is dropped, another one is a feature
whose key can be a key of a table, and all others are refused as invalid arguments. Three kinds of tokens do not end
so (`caught_ofToken_iff`). A pair with an integer beyond all floats fails as an overflow. A pair is only asked whether
its key is mutable itself; a tuple with something mutable within, at any depth, is taken for a key and is none. And a
bad token is named in the message; one that cannot be shown fails as what it is that keeps it from being shown.
-/

namespace OnlineLearning

namespace Datum
variable {d part : Datum} {n : Int}

/-- A datum is within itself, and within the tuples that have an item that it is within. -/
inductive Within (part : Datum) : Datum → Prop where
  | self : Within part part
  | item {x : Datum} {items : List Datum} (hx : x ∈ items) (h : Within part x) : Within part (.tuple items)

/-- Something mutable is within the datum. -/
def IsMutableWithin (d : Datum) : Prop := ∃ part, Within part d ∧ part.kind.isMutable = true

/-- An integer beyond all floats. -/
def IsGreat (d : Datum) : Prop := ∃ n, d = .int n ∧ 2 ^ 1024 - 2 ^ 970 ≤ n.natAbs

/-! ### Keys -/

theorem within_tuple_iff {items : List Datum} (h : part.kind.isMutable = true) :
    Within part (.tuple items) ↔ ∃ x ∈ items, Within part x := by
  constructor
  · intro hwithin
    cases hwithin with
    | self => cases h
    | item hx hwithin => exact ⟨_, hx, hwithin⟩
  · rintro ⟨x, hx, hwithin⟩
    exact .item hx hwithin

theorem isMutableWithin_tuple_iff {items : List Datum} :
    IsMutableWithin (.tuple items) ↔ ∃ x ∈ items, IsMutableWithin x := by
  constructor
  · rintro ⟨part, hwithin, hpart⟩
    obtain ⟨x, hx, hwithin⟩ := (within_tuple_iff hpart).mp hwithin
    exact ⟨x, hx, part, hwithin, hpart⟩
  · rintro ⟨x, hx, part, hwithin, hpart⟩
    exact ⟨part, .item hx hwithin, hpart⟩

theorem isMutableWithin_iff_of_ne_tuple (h : ∀ items, d ≠ .tuple items) :
    IsMutableWithin d ↔ d.kind.isMutable = true := by
  constructor
  · rintro ⟨part, hwithin, hpart⟩
    cases hwithin with
    | self => exact hpart
    | item => exact absurd rfl (h _)
  · exact fun hmutable => ⟨d, .self, hmutable⟩

mutual

theorem isSome_mutablePart?_iff : (d : Datum) → (d.mutablePart?.isSome = true ↔ IsMutableWithin d)
  | .tuple items => by
    rw [mutablePart?, isMutableWithin_tuple_iff]
    exact isSome_mutablePartOfItems?_iff items
  | .null | .bool _ | .int _ | .float .. | .text _ | .list _ | .dict _ => by
    rw [isMutableWithin_iff_of_ne_tuple]
    · exact Iff.rfl
    · exact nofun

theorem isSome_mutablePartOfItems?_iff :
    (items : List Datum) → ((mutablePartOfItems? items).isSome = true ↔ ∃ x ∈ items, IsMutableWithin x)
  | [] => by simp [mutablePartOfItems?]
  | x :: xs => by
    rw [List.exists_mem_cons_iff, ← isSome_mutablePart?_iff x, ← isSome_mutablePartOfItems?_iff xs, mutablePartOfItems?]
    cases mutablePart? x <;> simp

end

theorem exists_toKey_iff : (∃ key, d.toKey = .ok key) ↔ ¬IsMutableWithin d := by
  rw [← isSome_mutablePart?_iff, Bool.not_eq_true, Option.isSome_eq_false_iff, Option.isNone_iff_eq_none]
  constructor
  · rintro ⟨key, hkey⟩
    rw [← toKey_eq_ok_iff.mp hkey]
    exact key.immutable
  · exact fun h => ⟨⟨d, h⟩, toKey_eq_ok_iff.mpr rfl⟩

/-! ### Floats -/

theorem floatOfInt_of_lt (h : n.natAbs < 2 ^ 1024 - 2 ^ 970) : floatOfInt n = .ok (Number.ofInt n) := by
  obtain ⟨s, r, hx⟩ := Number.isFinite_iff.mp (Number.isFinite_ofInt_iff.mpr h)
  rw [floatOfInt, hx]

theorem floatOfInt_of_le (h : 2 ^ 1024 - 2 ^ 970 ≤ n.natAbs) : floatOfInt n = .error .integerTooLarge := by
  cases hx : (Number.ofInt n : Double) with
  | nan => exact absurd hx (Number.roundUnits_ne_nan _ _)
  | infinite s => rw [floatOfInt, hx]
  | finite s r =>
    have hfinite : (Number.ofInt n : Double).isFinite = true := by rw [hx]; rfl
    exact absurd (Number.isFinite_ofInt_iff.mp hfinite) (Nat.not_lt.mpr h)

/-- The only integers that are too large for a float are the great ones, and no other datum is. -/
theorem toFloat_eq_integerTooLarge_iff : d.toFloat = .error .integerTooLarge ↔ d.IsGreat := by
  constructor
  · intro h
    cases d with
    | int n =>
      refine ⟨n, rfl, Nat.le_of_not_lt fun hlt => ?_⟩
      rw [toFloat, floatOfInt_of_lt hlt] at h
      cases h
    | text s =>
      rw [toFloat] at h
      split at h <;> cases h
    | null | bool | float | tuple | list | dict => cases h
  · rintro ⟨n, rfl, hn⟩
    exact floatOfInt_of_le hn

end Datum

namespace Feature
variable {token key value : Datum} {x : Double} {calls : Nat}

/-- How reading a token should end. -/
inductive Caught (token : Datum) : Except Fault (Option Feature) → Prop where
  | dropped (h : token = .null) : Caught token (.ok none)
  | usable (f : Feature) (key : Key) (h : f.key.toKey = .ok key) : Caught token (.ok (some f))
  | refused (e : Fault) (h : e.kind = .invalidArgument) : Caught token (.error e)

/-- A pair with an integer beyond all floats. -/
def HasGreatValue (token : Datum) : Prop :=
  ∃ key value, token = .tuple [key, value] ∧ key.kind.isMutable = false ∧ value.IsGreat

/-- A pair of a number with a tuple that has something mutable within. -/
def HasMutableWithinKey (token : Datum) : Prop :=
  ∃ items value x, token = .tuple [.tuple items, value] ∧ (Datum.tuple items).IsMutableWithin ∧ value.toFloat = .ok x

/-- A token other than a text that is no feature, for its shape, its key or its value. -/
inductive Misshapen : Datum → Prop where
  | list (items : List Datum) : Misshapen (.list items)
  | dict (entries : List (Datum × Datum)) : Misshapen (.dict entries)
  | tuple {items : List Datum} (h : items.length ≠ 2) : Misshapen (.tuple items)
  | key {key value : Datum} (h : key.kind.isMutable = true) : Misshapen (.tuple [key, value])
  | value {key value : Datum} {e : Fault} (h : value.toFloat = .error e) (hgreat : ¬value.IsGreat) :
    Misshapen (.tuple [key, value])

/-- A misshapen token that cannot be shown within the calls. -/
def IsUnshowable (calls : Nat) (token : Datum) : Prop := Misshapen token ∧ token.hindrance? (some calls) ≠ none

/-- Reading the token has an end within the calls, and a good one. -/
def EndsWell (calls : Nat) (token : Datum) : Prop := ∃ ending ∈ ofTokenWithin calls token, Caught token ending

/-! ### Pairs -/

theorem valueIn_of_ok (h : value.toFloat = .ok x) : valueIn token value = .ok x := by rw [valueIn, h]

theorem valueIn_of_isGreat (h : value.IsGreat) : valueIn token value = .error .integerTooLarge := by
  rw [valueIn, Datum.toFloat_eq_integerTooLarge_iff.mpr h]

theorem valueIn_of_error {e : Fault} (h : value.toFloat = .error e) (hgreat : ¬value.IsGreat) :
    valueIn token value = .error (refusal token) := by
  rw [valueIn, h]
  split
  · rename_i heq
    cases heq
  · rename_i heq
    exact absurd (Datum.toFloat_eq_integerTooLarge_iff.mp (h.trans heq)) hgreat
  · rfl

theorem ofToken_pair (h : key.kind.isMutable = false) : ofToken (.tuple [key, value]) =
    valueIn (.tuple [key, value]) value >>= fun x => .ok (some ⟨key, x⟩) := by
  rw [ofToken, h, if_neg Bool.false_ne_true]
  rfl

theorem ofToken_of_hasGreatValue (h : HasGreatValue token) : ofToken token = .error .integerTooLarge := by
  obtain ⟨key, value, rfl, hkey, hvalue⟩ := h
  rw [ofToken_pair hkey, valueIn_of_isGreat hvalue]
  rfl

theorem ofToken_of_hasMutableWithinKey (h : HasMutableWithinKey token) :
    ∃ f, ofToken token = .ok (some f) ∧ f.key.IsMutableWithin := by
  obtain ⟨items, value, x, rfl, hwithin, hvalue⟩ := h
  refine ⟨⟨.tuple items, x⟩, ?_, hwithin⟩
  rw [ofToken_pair rfl, valueIn_of_ok hvalue]
  rfl

theorem caught_some {f : Feature} (h : ¬f.key.IsMutableWithin) : Caught token (.ok (some f)) :=
  have ⟨key, hkey⟩ := Datum.exists_toKey_iff.mpr h
  .usable f key hkey

/-- A datum that is no tuple is taken for a key exactly if it can be one. -/
theorem caught_plain (key : Datum) (x : Double) (hne : ∀ items, key ≠ .tuple items)
    (hkey : key.kind.isMutable = false) : Caught token (.ok (some ⟨key, x⟩)) := by
  refine caught_some fun hwithin => ?_
  rw [Datum.isMutableWithin_iff_of_ne_tuple hne, hkey] at hwithin
  cases hwithin

/-- The keys of a pair are usable, tuples apart that have something mutable within. -/
theorem caught_pair (hkey : key.kind.isMutable = false) (hvalue : value.toFloat = .ok x)
    (h : ¬HasMutableWithinKey (.tuple [key, value])) : Caught (.tuple [key, value]) (.ok (some ⟨key, x⟩)) := by
  by_cases htuple : ∃ items, key = .tuple items
  · obtain ⟨items, rfl⟩ := htuple
    exact caught_some fun hwithin => h ⟨items, value, x, rfl, hwithin, hvalue⟩
  · exact caught_plain key x (fun items h => htuple ⟨items, h⟩) hkey

/-! ### Refusals -/

theorem refusal_of_hindrance?_eq_none (h : token.hindrance? none = none) : refusal token = .badFeature token :=
  if_pos h

theorem refusal_of_hindrance?_ne_none (h : token.hindrance? none ≠ none) : refusal token = .longInteger := if_neg h

theorem Misshapen.ofToken_eq (h : Misshapen token) : ofToken token = .error (refusal token) := by
  cases h with
  | list | dict => rfl
  | @tuple items h =>
    match items, h with
    | [], _ | [_], _ | _ :: _ :: _ :: _, _ => rfl
    | [_, _], h => exact absurd rfl h
  | key h => exact if_pos h
  | @value key value e h hgreat =>
    cases hkey : key.kind.isMutable with
    | true => exact if_pos hkey
    | false =>
      rw [ofToken_pair hkey, valueIn_of_error h hgreat]
      rfl

theorem endsWell_of_ok {f? : Option Feature} (h : ofToken token = .ok f?) (hcaught : Caught token (.ok f?)) :
    EndsWell calls token :=
  ⟨.ok f?, by rw [ofTokenWithin, h]; rfl, hcaught⟩

theorem ofTokenWithin_of_refused (h : ofToken token = .error (refusal token)) : ofTokenWithin calls token =
    if token.hindrance? (some calls) = some .depth then none else some (.error (refusal token)) := by
  have hne : refusal token ≠ .integerTooLarge := by
    rw [refusal]
    split <;> exact nofun
  rw [ofTokenWithin, h]
  split
  · rename_i heq
    cases heq
  · rename_i heq
    cases hne (Except.error.inj heq)
  · rename_i heq
    cases heq
    rfl

/-- A refused token ends well exactly if it can be shown. -/
theorem endsWell_iff_of_refused (h : ofToken token = .error (refusal token)) :
    EndsWell calls token ↔ token.hindrance? (some calls) = none := by
  rw [EndsWell, ofTokenWithin_of_refused h]
  have hlimit := @Datum.hindrance?_eq_of_ne_depth calls token
  match hshow : token.hindrance? (some calls), hlimit with
  | none, hlimit =>
    rw [refusal_of_hindrance?_eq_none (hlimit nofun)]
    exact iff_of_true ⟨_, rfl, .refused _ rfl⟩ rfl
  | some .depth, _ =>
    refine iff_of_false ?_ nofun
    rintro ⟨_, hread, -⟩
    cases hread
  | some .longInteger, hlimit =>
    rw [refusal_of_hindrance?_ne_none (hlimit nofun ▸ nofun)]
    refine iff_of_false ?_ nofun
    rintro ⟨_, hread, hcaught⟩
    cases hread
    cases hcaught with
    | refused _ hkind => cases hkind

/-! ### All tokens -/

theorem endsWell_pair (hgreat : ¬HasGreatValue (.tuple [key, value]))
    (hmutable : ¬HasMutableWithinKey (.tuple [key, value]))
    (hbad : Misshapen (.tuple [key, value]) → EndsWell calls (.tuple [key, value])) :
    EndsWell calls (.tuple [key, value]) := by
  cases hkey : key.kind.isMutable with
  | true => exact hbad (.key hkey)
  | false =>
    cases hvalue : value.toFloat with
    | error e => exact hbad (.value hvalue fun h => hgreat ⟨key, value, rfl, hkey, h⟩)
    | ok x =>
      refine endsWell_of_ok ?_ (caught_pair hkey hvalue hmutable)
      rw [ofToken_pair hkey, valueIn_of_ok hvalue]
      rfl

theorem ofText_cases (s : CodePoints) :
    (∃ name x, ofText s = .ok ⟨.text name, x⟩) ∨ ofText s = .error (refusal (.text s)) := by
  unfold ofText
  split
  · split
    · exact .inr rfl
    · exact .inl ⟨s, 1, rfl⟩
  · split
    · exact .inr rfl
    · rename_i name value _ _
      cases hvalue : (Datum.text value).toFloat with
      | error e =>
        rw [valueIn_of_error hvalue (by rintro ⟨n, h, -⟩; cases h)]
        exact .inr rfl
      | ok x =>
        rw [valueIn_of_ok hvalue]
        exact .inl ⟨name, x, rfl⟩
  · exact .inr rfl

theorem endsWell_text (s : CodePoints) : EndsWell (calls + 1) (.text s) := by
  obtain ⟨name, x, h⟩ | h := ofText_cases s
  · exact endsWell_of_ok (congrArg (some <$> ·) h) (caught_plain (.text name) x nofun rfl)
  · have hread : ofToken (.text s) = .error (refusal (.text s)) := congrArg (some <$> ·) h
    exact (endsWell_iff_of_refused hread).mpr rfl

theorem ofToken_eq_none_iff : ofToken token = .ok none ↔ token = .null := by
  refine ⟨fun h => ?_, fun h => by rw [h]; rfl⟩
  unfold ofToken at h
  split at h
  · rfl
  · rename_i s
    cases hread : ofText s <;> rw [hread] at h <;> cases h
  · split at h
    · cases h
    · obtain ⟨x, -, hx⟩ := exists_of_bind_eq_ok h
      cases hx
  · cases h
  · cases h
  · cases h
  · cases h

theorem ofTokenWithin_eq_none_iff : ofTokenWithin calls token = some (.ok none) ↔ token = .null := by
  rw [← ofToken_eq_none_iff, ofTokenWithin]
  split <;> simp_all

theorem EndsWell.not_hasGreatValue (h : EndsWell calls token) : ¬HasGreatValue token := by
  intro hgreat
  obtain ⟨ending, hread, hcaught⟩ := h
  rw [ofTokenWithin, ofToken_of_hasGreatValue hgreat] at hread
  cases hread
  cases hcaught with
  | refused _ hkind => cases hkind

theorem EndsWell.not_hasMutableWithinKey (h : EndsWell calls token) : ¬HasMutableWithinKey token := by
  intro hmutable
  obtain ⟨f, hf, hwithin⟩ := ofToken_of_hasMutableWithinKey hmutable
  obtain ⟨ending, hread, hcaught⟩ := h
  rw [ofTokenWithin, hf] at hread
  cases hread
  cases hcaught with
  | usable _ key hkey => exact Datum.exists_toKey_iff.mp ⟨key, hkey⟩ hwithin

theorem EndsWell.not_isUnshowable (h : EndsWell calls token) : ¬IsUnshowable calls token :=
  fun ⟨hbad, hshow⟩ => hshow ((endsWell_iff_of_refused hbad.ofToken_eq).mp h)

theorem endsWell_of_misshapen (hshow : ¬IsUnshowable calls token) (h : Misshapen token) : EndsWell calls token :=
  (endsWell_iff_of_refused h.ofToken_eq).mpr (of_not_not fun hhindrance => hshow ⟨h, hhindrance⟩)

/-- The null token alone is dropped. Every other token is a feature with a usable key or is refused as an invalid
argument, exactly if it is not of the three kinds that slip through. -/
theorem caught_ofToken_iff (calls : Nat) (token : Datum) :
    (ofTokenWithin (calls + 1) token = some (.ok none) ↔ token = .null) ∧
    (EndsWell (calls + 1) token ↔
      ¬HasGreatValue token ∧ ¬HasMutableWithinKey token ∧ ¬IsUnshowable (calls + 1) token) := by
  refine ⟨ofTokenWithin_eq_none_iff, fun h => ⟨h.not_hasGreatValue, h.not_hasMutableWithinKey, h.not_isUnshowable⟩,
    fun ⟨hgreat, hmutable, hshow⟩ => ?_⟩
  have hbad := endsWell_of_misshapen hshow
  cases token with
  | null => exact endsWell_of_ok rfl (.dropped rfl)
  | bool | int | float => exact endsWell_of_ok rfl (caught_plain _ 1 nofun rfl)
  | text s => exact endsWell_text s
  | list items => exact hbad (.list items)
  | dict entries => exact hbad (.dict entries)
  | tuple items =>
    match items with
    | [key, value] => exact endsWell_pair hgreat hmutable hbad
    | [] | [_] | _ :: _ :: _ :: _ => exact hbad (.tuple (by simp))

-- it takes two nested calls to show a list in a list
example : ofTokenWithin 1 (.list [.list []]) = none ∧ ofTokenWithin 2 (.list [.list []]) ≠ none := by decide

/-- A pair with an integer of three hundred and ten digits fails as an overflow. A pair of one with a tuple that
holds a list is a feature whose key cannot be a key. -/
theorem not_caught_ofToken :
    (ofToken (.tuple [.text "a", .int (10 ^ 309)]) = .error .integerTooLarge ∧
      ¬Caught (.tuple [.text "a", .int (10 ^ 309)]) (ofToken (.tuple [.text "a", .int (10 ^ 309)]))) ∧
    (ofToken (.tuple [.tuple [.text "a", .list []], .float 1 0]) = .ok (some ⟨.tuple [.text "a", .list []], 1⟩) ∧
      ¬Caught (.tuple [.tuple [.text "a", .list []], .float 1 0])
        (ofToken (.tuple [.tuple [.text "a", .list []], .float 1 0]))) := by
  have hread : ofToken (.tuple [.text "a", .int (10 ^ 309)]) = .error .integerTooLarge :=
    ofToken_of_hasGreatValue ⟨_, _, rfl, rfl, _, rfl, by decide +kernel⟩
  have hread' : ofToken (.tuple [.tuple [.text "a", .list []], .float 1 0]) =
      .ok (some ⟨.tuple [.text "a", .list []], 1⟩) := by
    rw [ofToken_pair rfl, valueIn_of_ok rfl]
    rfl
  refine ⟨⟨hread, ?_⟩, hread', ?_⟩
  · rw [hread]
    rintro (_ | _ | ⟨_, hkind⟩)
    cases hkind
  · rw [hread']
    rintro (_ | ⟨_, key, hkey⟩ | _)
    cases hkey

end Feature

end OnlineLearning
