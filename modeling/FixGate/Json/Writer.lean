import FixGate.Decimal.Shortest
import FixGate.Text.Search
import FixGate.Value

/-!
# Writing JSON

A value as JSON text without spaces between tokens. Quotes, backslashes and control characters are
escaped; all else stands for itself.

* `write` : the text of a value
-/

namespace FixGate.Json

/-- One character inside a JSON text. -/
def writeChar (c : Char) : List Char :=
  if c == '"' then ['\\', '"']
  else if c == '\\' then ['\\', '\\']
  else if c.toNat < 32 then '\\' :: 'u' :: Text.hexDigits c.toNat 4
  else [c]

/-- A text between double quotes. -/
def writeText (s : String) : String :=
  String.ofList ('"' :: s.toList.flatMap writeChar ++ ['"'])

mutual
/-- The text of a value; a moment is written as a text. -/
def write : Value → String
  | .null => "null"
  | .bool true => "true"
  | .bool false => "false"
  | .int n => toString n
  | .real x => Decimal.exactText x
  | .text s => writeText s
  | .moment _ s => writeText s
  | .list items => "[" ++ ",".intercalate (writeItems items) ++ "]"
  | .table fields => "\x7b" ++ ",".intercalate (writeFields fields) ++ "\x7d"

/-- The texts of the elements of a list. -/
def writeItems : List Value → List String
  | [] => []
  | v :: vs => write v :: writeItems vs

/-- The texts of the fields of a table. -/
def writeFields : List (String × Value) → List String
  | [] => []
  | (n, v) :: fs => (writeText n ++ ":" ++ write v) :: writeFields fs
end

end FixGate.Json
