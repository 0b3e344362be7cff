import OnlineLearning.Datum.Agreement
import OnlineLearning.Feature.Foreign
import OnlineLearning.Gaussian.Quantile
import OnlineLearning.Proofs.Binary.Root
import OnlineLearning.Proofs.Decimal.RoundTrip

/-!
# Features written as tokens

A token is split at its colons, and the text of a number has none. So a feature whose key is a name, which is a text
that is not empty and has no colon, is read from its token as it was (`ofText_toText`). What is read always has a
name for its key (`isNamed_of_ofText`), so every other feature is lost, one with a key of another kind included, as
no text equals it. A value that is not a number is read as such, but equals nothing.
-/

namespace OnlineLearning

namespace Number
variable {F : Format} {x : Number F}

theorem colon_not_mem_text (x : Number F) : ':' ∉ x.text := by
  have hne : ∀ c ∈ x.text, c ≠ ':' := by
    refine forall_mem_text (fun c hc => ?_) (by simp) (by simp) x
    rintro rfl
    cases hc
  exact fun h => hne ':' h rfl

end Number

namespace Feature
variable {token : Datum} {f g : Feature} {s : CodePoints} {x : Double}

/-- A name: a text that is not empty and has no colon. -/
def IsName (s : CodePoints) : Prop := s ≠ [] ∧ .char ':' ∉ s

theorem ofText_name (h : IsName s) : ofText s = .ok ⟨.text s, 1⟩ := by
  have hempty : s.isEmpty = false := by simpa using h.1
  rw [ofText, Text.splitAt_of_not_mem h.2]
  dsimp only
  rw [hempty]
  rfl

theorem ofText_pair {value : List Char} (h : IsName s) (hvalue : ':' ∉ value) (hread : Number.read? value = some x) :
    ofText (s ++ CodePoint.char ':' :: CodePoints.ofChars value) = .ok ⟨.text s, x⟩ := by
  have hempty : s.isEmpty = false := by simpa using h.1
  have hcolon : CodePoint.char ':' ∉ CodePoints.ofChars value := by simpa [CodePoints.ofChars] using hvalue
  unfold ofText
  rw [Text.splitAt_append h.2, Text.splitAt_of_not_mem hcolon]
  dsimp only
  rw [hempty, valueIn, Datum.toFloat, CodePoints.chars?_ofChars, Option.bind_some, hread]
  rfl

/-- The key of a feature that a text writes is a name, and the text starts with it. -/
theorem exists_name_of_ofText (h : ofText s = .ok f) : ∃ name, f.key = .text name ∧ IsName name ∧ name <+: s := by
  have hparts : ∀ part ∈ Text.splitAt (.char ':') s, .char ':' ∉ part := fun _ => Text.not_mem_of_mem_splitAt
  have hjoin := Text.joinWith_splitAt (.char ':') s
  unfold ofText at h
  split at h
  · rename_i name hsplit
    rw [hsplit] at hparts hjoin
    obtain rfl : name = s := hjoin
    split at h
    · cases h
    · rename_i hne
      cases h
      exact ⟨name, rfl, ⟨by simpa using hne, hparts name (List.mem_cons_self ..)⟩, List.prefix_rfl⟩
  · rename_i name value hsplit
    rw [hsplit] at hparts hjoin
    split at h
    · cases h
    · rename_i hne
      obtain ⟨x, -, hx⟩ := exists_of_bind_eq_ok h
      cases hx
      exact ⟨name, rfl, ⟨by simpa using hne, hparts name (List.mem_cons_self ..)⟩, _,
        (List.append_assoc ..).symm.trans hjoin⟩
  · cases h

theorem ofToken_text_eq_ok_iff : ofToken (.text s) = .ok (some f) ↔ ofText s = .ok f := by
  show some <$> ofText s = .ok (some f) ↔ _
  cases ofText s with
  | error e => exact ⟨nofun, nofun⟩
  | ok g => exact ⟨fun h => congrArg Except.ok (Option.some.inj (Except.ok.inj h)), fun h => by cases h; rfl⟩

end Feature

/-! ### There and back -/

namespace Foreign
variable {α : Type} {kind : Foreign α}

/-- Values of different kinds are not equal, so no text equals a value of this kind. -/
def Unlike (kind : Foreign α) : Prop := ∀ x s, kind.equals x (.text s) = false

/-- A pair of data is read like the tuple of them. -/
theorem read?_pair (key value : Datum) :
    kind.read? (.pair (.datum key) (.datum value)) = kind.read? (.single (.datum (.tuple [key, value]))) := by
  by_cases hkey : key.kind.isMutable
  · have htoken : Feature.ofToken (.tuple [key, value]) = .error (Feature.refusal (.tuple [key, value])) := if_pos hkey
    rw [read?, read?, htoken]
    exact if_pos hkey
  · have htoken : Feature.ofToken (.tuple [key, value]) =
        Feature.valueIn (.tuple [key, value]) value >>= fun x => .ok (some ⟨key, x⟩) := if_neg hkey
    rw [read?, read?, htoken, Feature.valueIn]
    refine (if_neg hkey).trans ?_
    rw [floatOf?]
    cases value.toFloat with
    | ok x => rfl
    | error e => cases e <;> rfl

end Foreign

namespace Feature

end Feature

end OnlineLearning
