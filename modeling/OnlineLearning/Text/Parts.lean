/-! # Parts of a text

A text is split at every occurrence of a character, and parts are joined with a text between them.
Joining with the character undoes the splitting. Characters may be code points as well. -/

namespace OnlineLearning.Text
variable {α : Type}

/-- The parts of a text joined with `sep` between them. -/
def joinWith (sep : List α) : List (List α) → List α
  | [] => []
  | [part] => part
  | part :: parts => part ++ sep ++ joinWith sep parts

/-- Parts with a comma and a blank between them. -/
def commaSeparated (parts : List (List Char)) : List Char := joinWith [',', ' '] parts

theorem joinWith_cons (sep part : List α) {parts : List (List α)} (h : parts ≠ []) :
    joinWith sep (part :: parts) = part ++ sep ++ joinWith sep parts := by
  cases parts with
  | nil => exact absurd rfl h
  | cons _ _ => rfl

variable [DecidableEq α]

/-- The parts between the occurrences of `sep`; one part more than there are occurrences. -/
def splitAt (sep : α) : List α → List (List α)
  | [] => [[]]
  | c :: cs =>
    if c = sep then [] :: splitAt sep cs
    else
      match splitAt sep cs with
      | [] => [[c]]
      | part :: parts => (c :: part) :: parts

theorem splitAt_ne_nil (sep : α) (cs : List α) : splitAt sep cs ≠ [] := by
  cases cs with
  | nil => simp [splitAt]
  | cons c cs => simp only [splitAt]; split <;> (try split) <;> simp

theorem splitAt_of_not_mem {sep : α} {cs : List α} (h : sep ∉ cs) :
    splitAt sep cs = [cs] := by
  induction cs with
  | nil => rfl
  | cons c cs ih =>
    simp only [List.mem_cons, not_or] at h
    rw [splitAt, if_neg (Ne.symm h.1), ih h.2]

theorem splitAt_append {sep : α} {cs : List α} (h : sep ∉ cs) (rest : List α) :
    splitAt sep (cs ++ sep :: rest) = cs :: splitAt sep rest := by
  induction cs with
  | nil => simp [splitAt]
  | cons c cs ih =>
    simp only [List.mem_cons, not_or] at h
    rw [List.cons_append, splitAt, if_neg (Ne.symm h.1), ih h.2]

theorem joinWith_splitAt (sep : α) (cs : List α) : joinWith [sep] (splitAt sep cs) = cs := by
  induction cs with
  | nil => rfl
  | cons c cs ih =>
    simp only [splitAt]
    split
    · rename_i hc
      rw [joinWith_cons _ _ (splitAt_ne_nil sep cs), ih, hc]; rfl
    · rcases hp : splitAt sep cs with _ | ⟨part, _ | ⟨next, parts⟩⟩
      · exact absurd hp (splitAt_ne_nil sep cs)
      · rw [hp] at ih; exact congrArg (c :: ·) ih
      · rw [hp] at ih; exact congrArg (c :: ·) ih

theorem not_mem_of_mem_splitAt {sep : α} {cs part : List α} (h : part ∈ splitAt sep cs) :
    sep ∉ part := by
  induction cs generalizing part with
  | nil => simp only [splitAt, List.mem_singleton] at h; simp [h]
  | cons c cs ih =>
    simp only [splitAt] at h
    split at h
    · rcases List.mem_cons.mp h with rfl | h
      · simp
      · exact ih h
    · rename_i hc
      rcases hp : splitAt sep cs with _ | ⟨first, parts⟩
      · exact absurd hp (splitAt_ne_nil sep cs)
      · rw [hp] at h ih
        rcases List.mem_cons.mp h with rfl | h
        · simpa [Ne.symm hc] using ih (List.mem_cons_self ..)
        · exact ih (List.mem_cons_of_mem _ h)

end OnlineLearning.Text
