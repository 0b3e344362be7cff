import OnlineLearning.Datum.Basic
import OnlineLearning.Decimal.Layout
import OnlineLearning.Text.Parts
import OnlineLearning.Text.Quoted

/-! # Data as text

`quoted` writes a datum so that its kind can be seen, with texts between quotes and containers
between brackets; `display` is the same except that a text stands for itself. -/

namespace OnlineLearning.Datum

mutual

/-- The text of a datum that shows its kind. -/
def quoted : Datum → List Char
  | null => "None".toList
  | bool true => "True".toList
  | bool false => "False".toList
  | int n => Text.intDigits n
  | float x _ => x.text
  | text s => Text.quoted s
  | tuple items =>
    match quotedItems items with
    | [x] => '(' :: x ++ [',', ')']
    | xs => '(' :: Text.commaSeparated xs ++ [')']
  | list items => '[' :: Text.commaSeparated (quotedItems items) ++ [']']
  | dict entries => '\x7b' :: Text.commaSeparated (quotedEntries entries) ++ ['\x7d']

def quotedItems : List Datum → List (List Char)
  | [] => []
  | x :: xs => quoted x :: quotedItems xs

def quotedEntries : List (Datum × Datum) → List (List Char)
  | [] => []
  | (k, v) :: rest => (quoted k ++ ':' :: ' ' :: quoted v) :: quotedEntries rest

end

/-- The text of a datum; a text stands for itself. -/
def display : Datum → CodePoints
  | text s => s
  | d => .ofChars (quoted d)

end OnlineLearning.Datum
