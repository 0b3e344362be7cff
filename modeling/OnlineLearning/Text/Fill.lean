import OnlineLearning.Text.Parts

/-! # Filled lines

Words are put on lines of a width, as many on each as fit with blanks between them; a word that is
too long has a line of its own. No word is lost or moved, which is `flatten_fill`, and every line
fits or holds a single word, which is `fits_of_mem_fill`. -/

namespace OnlineLearning.Text

def unwords (line : List (List Char)) : List Char := joinWith [' '] line

/-- Puts words on lines, after those that are on the first line already. -/
def fillFrom (width : Nat) (line : List (List Char)) :
    List (List Char) → List (List (List Char))
  | [] => [line]
  | word :: words =>
    if (unwords (line ++ [word])).length ≤ width then fillFrom width (line ++ [word]) words
    else line :: fillFrom width [word] words

def fill (width : Nat) : List (List Char) → List (List (List Char))
  | [] => []
  | word :: words => fillFrom width [word] words

/-- The lines of a text whose words have blanks between them. -/
def fillText (width : Nat) (text : List Char) : List (List Char) :=
  (fill width ((splitAt ' ' text).filter fun word => word ≠ [])).map unwords

/-- Whether a line is within a width, or has a single word. -/
def Fits (width : Nat) (line : List (List Char)) : Prop :=
  (unwords line).length ≤ width ∨ line.length = 1

theorem flatten_fillFrom (width : Nat) (line words : List (List Char)) :
    (fillFrom width line words).flatten = line ++ words := by
  induction words generalizing line with
  | nil => simp [fillFrom]
  | cons word words ih =>
    rw [fillFrom]
    split
    · rw [ih, List.append_assoc, List.singleton_append]
    · rw [List.flatten_cons, ih, List.singleton_append]

theorem flatten_fill (width : Nat) (words : List (List Char)) :
    (fill width words).flatten = words := by
  cases words with
  | nil => rfl
  | cons word words => exact flatten_fillFrom width [word] words

theorem fits_of_mem_fillFrom {width : Nat} {line words : List (List Char)}
    (h : Fits width line) {l : List (List Char)} (hl : l ∈ fillFrom width line words) :
    Fits width l := by
  induction words generalizing line with
  | nil => rwa [List.mem_singleton.mp hl]
  | cons word words ih =>
    rw [fillFrom] at hl
    split at hl
    · rename_i hw
      exact ih (.inl hw) hl
    · rcases List.mem_cons.mp hl with rfl | hl
      · exact h
      · exact ih (.inr rfl) hl

theorem fits_of_mem_fill {width : Nat} {words l : List (List Char)} (h : l ∈ fill width words) :
    Fits width l := by
  cases words with
  | nil => simp [fill] at h
  | cons word words => exact fits_of_mem_fillFrom (.inr rfl) h

end OnlineLearning.Text
