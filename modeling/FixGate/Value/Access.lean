import FixGate.Decimal.Reading
import FixGate.Failure
import FixGate.Text.Search
import FixGate.Value

/-!
# Looking into values

A step that uses data takes it to be of some kind; data of another kind ends the step with a complaint
that says which use it does not admit.

* `Value.getOr` : a field of a table, or a default
* `Value.field` : a field that must be there
* `Value.elements` : what a value yields one by one
* `Value.mentions` : whether a value holds a text, an element or a field
* `Value.toInteger`, `Value.toReal`, `Value.toPath` : conversions
-/

namespace FixGate.Value

/-- A field of a table, or a default if the table has none of that name. -/
def getOr (v : Value) (name : String) (default : Value) : Except Failure Value :=
  match v with
  | .table fields => .ok ((fields.lookup name).getD default)
  | v => .error (.shape (.noMember v.kind "get"))

/-- A field that must be there. -/
def field (v : Value) (name : String) : Except Failure Value :=
  match v with
  | .table fields =>
    match fields.lookup name with
    | some x => .ok x
    | none => .error (.missingField (Text.quoted name))
  | .text _ => .error (.shape .textSubscript)
  | .list _ => .error (.shape .listSubscript)
  | v => .error (.shape (.noSubscript v.kind))

/-- What a value yields one by one: the elements of a list, the names of a table's fields, the
code points of a text. -/
def elements : Value → Except Failure (List Value)
  | .list items => .ok items
  | .table fields => .ok (fields.map fun f => .text f.1)
  | .text s => .ok ((Text.pointsOf s).map fun n => .text (String.ofList (Text.ofPoint n)))
  | v => .error (.shape (.noItems v.kind))

/-- The fields of a table. -/
def fields (v : Value) : Except Failure Fields :=
  match v with
  | .table fs => .ok fs
  | v => .error (.shape (.noMember v.kind "items"))

/-- A value holds a text: inside it, as an element, or as the name of a field. -/
def mentions (v : Value) (s : String) : Except Failure Bool :=
  match v with
  | .text t => .ok (Text.contains t s)
  | .list items => .ok (items.any fun x => match x with
    | .text t => t == s
    | _ => false)
  | .table fs => .ok (fs.lookup s).isSome
  | v => .error (.shape (.noMembership v.kind))

/-- The text of a value that must be one, since a member of texts is asked of it. -/
def textFor (v : Value) (member : String) : Except Failure String :=
  match v with
  | .text s => .ok s
  | v => .error (.shape (.noMember v.kind member))

/-- The integer that a value denotes; a real number loses its fraction. -/
def toInteger : Value → Except Failure Int
  | .bool b => .ok (if b then 1 else 0)
  | .int n => .ok n
  | .real x =>
    match Decimal.truncate? x with
    | some n => .ok n
    | none => if x == x then .error .infinite else .error (.value .noNumber)
  | .text s =>
    match Text.readInteger s with
    | .ok n => .ok n
    | .error f => .error (.value (.ofInteger s f))
  | v => .error (.shape (.notIntegral v.kind))

/-- The real number nearest to an integer. -/
def realOfInt (n : Int) : Float :=
  let x := Decimal.ofScientific n.natAbs 0
  if n < 0 then -x else x

/-- The real number that a value denotes. -/
def toReal : Value → Except Failure Float
  | .bool b => .ok (if b then 1 else 0)
  | .int n =>
    let x := realOfInt n
    if x == Decimal.infinity || x == -Decimal.infinity then .error .infinite else .ok x
  | .real x => .ok x
  | .text s =>
    match Decimal.readReal s with
    | some x => .ok x
    | none => .error (.value (.notReal s))
  | v => .error (.shape (.notNumeric v.kind))

/-- The path that a value denotes. -/
def toPath : Value → Except Failure Path
  | .text s => .ok (Path.ofText s)
  | v => .error (.shape (.notPath v.kind))

end FixGate.Value
