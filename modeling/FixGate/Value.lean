import FixGate.Decimal.Shortest
import FixGate.Text.Quoted

/-!
# Values of data formats

Reports of tools, replies of a model and settings files hold data whose kinds are only known once it
is read. A value keeps the distinction between whole and real numbers, and a table keeps its fields
in the order in which their names first appeared.

* `Value` : the values
* `Value.display`, `Value.shown` : a value as running text, and as an element of a list
* `Value.isTrue` : whether a value counts as present
* `Fields.insert` : a field set, the latest value of a name winning
-/

namespace FixGate

/-- What a moment tells: a day, a time of day, or both. -/
inductive MomentKind where
  | day
  | time
  | dayTime
  deriving DecidableEq, Repr, Inhabited

/-- A value of a data format. A moment is kept as it was written. -/
inductive Value where
  | null
  | bool (b : Bool)
  | int (n : Int)
  | real (x : Float)
  | text (s : String)
  | moment (kind : MomentKind) (s : String)
  | list (items : List Value)
  | table (fields : List (String × Value))
  deriving Inhabited

/-- The fields of a table in order. -/
abbrev Fields := List (String × Value)

/-- A field set: a name that is already there keeps its place and takes the new value. -/
def Fields.insert (fields : Fields) (name : String) (v : Value) : Fields :=
  match fields with
  | [] => [(name, v)]
  | (n, old) :: rest =>
    if n == name then (n, v) :: rest else (n, old) :: Fields.insert rest name v

/-- The value of a field. -/
def Fields.get? (fields : Fields) (name : String) : Option Value :=
  fields.lookup name

namespace Value

/-- The name of a value's kind, as complaints about it give it. -/
def kind : Value → String
  | .null => "NoneType"
  | .bool _ => "bool"
  | .int _ => "int"
  | .real _ => "float"
  | .text _ => "str"
  | .moment .day _ => "datetime.date"
  | .moment .time _ => "datetime.time"
  | .moment .dayTime _ => "datetime.datetime"
  | .list _ => "list"
  | .table _ => "dict"

/-- A value counts as present unless it is null, false, zero or empty. -/
def isTrue : Value → Bool
  | .null => false
  | .bool b => b
  | .int n => n != 0
  | .real x => x != 0
  | .text s => !s.isEmpty
  | .moment _ _ => true
  | .list items => !items.isEmpty
  | .table fields => !fields.isEmpty

mutual
/-- A value as it appears inside a list or a table: texts stand between quotes. -/
def shown : Value → String
  | .null => "None"
  | .bool true => "True"
  | .bool false => "False"
  | .int n => toString n
  | .real x => Decimal.exactText x
  | .text s => Text.quoted s
  | .moment _ s => s
  | .list items => "[" ++ ", ".intercalate (shownItems items) ++ "]"
  | .table fields => "\x7b" ++ ", ".intercalate (shownFields fields) ++ "\x7d"

/-- The elements of a list, each as it appears inside it. -/
def shownItems : List Value → List String
  | [] => []
  | v :: vs => shown v :: shownItems vs

/-- The fields of a table, each as it appears inside it. -/
def shownFields : List (String × Value) → List String
  | [] => []
  | (n, v) :: fs => (Text.quoted n ++ ": " ++ shown v) :: shownFields fs
end

/-- A value as running text: a text stands as it is. -/
def display : Value → String
  | .text s => s
  | v => shown v

/-- The text of a value that is one. -/
def text? : Value → Option String
  | .text s => some s
  | _ => none

end Value

end FixGate
