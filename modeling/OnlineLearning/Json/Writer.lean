import OnlineLearning.Text.Parts
import OnlineLearning.Text.Quoted

/-! # Data written as text

The pieces that lines of data are put together from. Texts keep all characters but quotes,
backslashes and controls; parts are separated by a comma and a blank. -/

namespace OnlineLearning.Json

def textChar (c : Char) : List Char :=
  if c = '"' then ['\\', '"']
  else if c = '\\' then ['\\', '\\']
  else if c = '\n' then ['\\', 'n']
  else if c = '\r' then ['\\', 'r']
  else if c = '\t' then ['\\', 't']
  else if c = '\x08' then ['\\', 'b']
  else if c = '\x0c' then ['\\', 'f']
  else if c.toNat < 0x20 then '\\' :: 'u' :: Text.hexDigits 4 c.toNat
  else [c]

def text (s : String) : List Char := '"' :: s.toList.flatMap textChar ++ ['"']

def array (items : List (List Char)) : List Char := '[' :: Text.commaSeparated items ++ [']']

/-- An object with written data under names. -/
def object (entries : List (String × List Char)) : List Char :=
  '\x7b' :: Text.commaSeparated (entries.map fun e => text e.1 ++ ':' :: ' ' :: e.2) ++ ['\x7d']

end OnlineLearning.Json
