/-! # Lines

A line ends with a line feed, a carriage return, or both in that order; each kind of end becomes a
line feed, which stays with its line. -/

namespace OnlineLearning.Text

/-- A text whose line ends are line feeds. -/
def unifyBreaks (cs : List Char) : List Char :=
  (cs.foldr
    (fun c (next, rest) =>
      (some c, if c = '\r' then if next = some '\n' then rest else '\n' :: rest else c :: rest))
    ((none : Option Char), ([] : List Char))).2

/-- The lines of a text with one more character in front. -/
def pushFront (c : Char) (lines : List (List Char)) : List (List Char) :=
  if c = '\n' then [c] :: lines
  else
    match lines with
    | [] => [[c]]
    | line :: rest => (c :: line) :: rest

/-- The lines of a text, each with its line feed. -/
def lines (cs : List Char) : List (List Char) := (unifyBreaks cs).foldr pushFront []

theorem flatten_pushFront (c : Char) (ls : List (List Char)) :
    (pushFront c ls).flatten = c :: ls.flatten := by
  unfold pushFront
  split
  · rfl
  · cases ls <;> rfl

theorem flatten_lines (cs : List Char) : (lines cs).flatten = unifyBreaks cs := by
  unfold lines
  induction unifyBreaks cs with
  | nil => rfl
  | cons c cs ih => rw [List.foldr_cons, flatten_pushFront, ih]

end OnlineLearning.Text
