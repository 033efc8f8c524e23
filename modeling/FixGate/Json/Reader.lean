import FixGate.Decimal.Nearest
import FixGate.Failure
import FixGate.Text.Integer
import FixGate.Text.Point
import FixGate.Value

/-!
# Reading JSON

A reader over what remains of the text: each step returns a value together with the rest, or a fault
together with how much was left where it lies. Besides the standard grammar it takes the words for no
number and the infinities; a name given twice keeps its first place and its last value. An escape for
half of a pair that stands alone is kept as a half.

Integers with too many digits, and lists and tables that are nested too deeply, are not read. These are
limits of the reader and no errors of the text: who takes malformed texts for the absence of a value
still has to tell of a limit that was passed.

* `Fault`, `Complaint` : what can be wrong, and where
* `Fault.limit?` : the failure where a limit was passed
* `readLeading`, `leading?` : the value at the start of a text
* `read`, `whole?` : the value that a whole text denotes
* `Complaint.message` : the complaint in words, with line, column and offset
-/

namespace FixGate.Json

/-- What can be wrong with a text. -/
inductive Fault where
  | value
  | name
  | colon
  | comma
  | extra
  | escape
  | codePoint
  | control
  | unterminated
  | byteOrderMark
  | digits (count : Nat)
  | depth (fault : DepthFault)
  deriving DecidableEq, Repr

/-- A fault in words. -/
def Fault.describe : Fault → String
  | .value => "Expecting value"
  | .name => "Expecting property name enclosed in double quotes"
  | .colon => "Expecting ':' delimiter"
  | .comma => "Expecting ',' delimiter"
  | .extra => "Extra data"
  | .escape => "Invalid \\escape"
  | .codePoint => "Invalid \\uXXXX escape"
  | .control => "Invalid control character at"
  | .unterminated => "Unterminated string starting at"
  | .byteOrderMark => "Unexpected UTF-8 BOM (decode using utf-8-sig)"
  | .digits count => (ValueFault.tooManyDigits count).message
  | .depth fault => fault.message

/-- The failure of a fault that is a limit of the reader. -/
def Fault.limit? : Fault → Option Failure
  | .digits count => some (.value (.tooManyDigits count))
  | .depth fault => some (.depth fault)
  | _ => none

/-- A fault, and how many characters of the text were left where it lies. -/
structure Stop where
  fault : Fault
  left : Nat
  deriving DecidableEq, Repr

/-- A fault, and the code points of the text before it. -/
structure Complaint where
  fault : Fault
  before : List Nat
  deriving DecidableEq, Repr

/-- The complaint in words, with the line and column of the fault, counted from one. -/
def Complaint.message (c : Complaint) : String :=
  let feed := '\n'.toNat
  let line := c.before.count feed + 1
  let column := (c.before.reverse.takeWhile (· != feed)).length + 1
  s!"{c.fault.describe}: line {line} column {column} (char {c.before.length})"

/-- A character that may stand between tokens. -/
def isSpace (c : Char) : Bool :=
  c == ' ' || c == '\t' || c == '\n' || c == '\r'

/-- The text from its next token. -/
def skipSpace (cs : List Char) : List Char :=
  cs.dropWhile isSpace

/-- The code unit written by four digits of base sixteen. -/
def codeUnit? (a b c d : Char) : Option Nat := do
  let a ← Text.hexValue? a
  let b ← Text.hexValue? b
  let c ← Text.hexValue? c
  let d ← Text.hexValue? d
  pure (((a * 16 + b) * 16 + c) * 16 + d)

/-- The character named by a letter after a backslash. -/
def escaped? : Char → Option Char
  | '"' => some '"'
  | '\\' => some '\\'
  | '/' => some '/'
  | 'b' => some '\x08'
  | 'f' => some '\x0c'
  | 'n' => some '\n'
  | 'r' => some '\r'
  | 't' => some '\t'
  | _ => none

/-- The code point that a four-digit escape denotes, given the text after its letter: that of a pair if
the other half follows as an escape, else that of the unit. The escape must not be the last of the
text. -/
def readUnit (cs : List Char) : Except Stop (Nat × List Char) :=
  match cs with
  | a :: b :: c :: d :: rest =>
    match rest, codeUnit? a b c d with
    | [], _ => .error ⟨.codePoint, cs.length + 1⟩
    | _, none => .error ⟨.codePoint, cs.length + 1⟩
    | rest, some n =>
      match Text.isHigh n, rest with
      | true, '\\' :: 'u' :: e :: f :: g :: h :: more =>
        match more, codeUnit? e f g h with
        | [], _ => .ok (n, rest)
        | _, none => .error ⟨.codePoint, more.length + 5⟩
        | more, some m => if Text.isLow m then .ok (Text.pairPoint n m, more) else .ok (n, rest)
      | _, _ => .ok (n, rest)
  | _ => .error ⟨.codePoint, cs.length + 1⟩

/-- The characters of a text up to its closing quote, given how much was left at the opening one. -/
def readChars (opening : Nat) : Nat → List Char → List Char → Except Stop (String × List Char)
  | 0, _, _ => .error ⟨.unterminated, opening⟩
  | _, _, [] => .error ⟨.unterminated, opening⟩
  | fuel + 1, read, c :: cs =>
    if c == '"' then .ok (String.ofList read.reverse, cs)
    else if c == '\\' then
      match cs with
      | [] => .error ⟨.unterminated, opening⟩
      | 'u' :: rest => do
        let (n, rest) ← readUnit rest
        readChars opening fuel ((Text.ofPoint n).reverse ++ read) rest
      | e :: rest =>
        match escaped? e with
        | some x => readChars opening fuel (x :: read) rest
        | none => .error ⟨.escape, cs.length + 1⟩
    else if c.toNat < 32 then .error ⟨.control, cs.length + 1⟩
    else readChars opening fuel (c :: read) cs

/-- A text, given what follows its opening quote. -/
def readText (cs : List Char) : Except Stop (String × List Char) :=
  readChars (cs.length + 1) (cs.length + 1) [] cs

/-- The fraction at the start of a text: a point and at least one digit. -/
def fractionDigits : List Char → Option (List Char × List Char)
  | '.' :: cs =>
    match cs.takeWhile Char.isDigit with
    | [] => none
    | ds => some (ds, cs.dropWhile Char.isDigit)
  | _ => none

/-- The exponent at the start of a text: its letter, an optional sign and at least one digit. -/
def exponentPart : List Char → Option (Int × List Char)
  | e :: cs =>
    if e == 'e' || e == 'E' then
      let (sign, cs) : Int × List Char := match cs with
        | '-' :: cs => (-1, cs)
        | '+' :: cs => (1, cs)
        | cs => (1, cs)
      match cs.takeWhile Char.isDigit with
      | [] => none
      | ds => some (sign * Text.readDigits ds, cs.dropWhile Char.isDigit)
    else none
  | [] => none

/-- The digits before the point: a zero alone, or digits that do not begin with one. -/
def wholeDigits : List Char → Option (List Char × List Char)
  | '0' :: cs => some (['0'], cs)
  | cs =>
    match cs.takeWhile Char.isDigit with
    | [] => none
    | ds => some (ds, cs.dropWhile Char.isDigit)

/-- The number written by the digits of an integer. -/
def readWhole (negative : Bool) (digits : List Char) : Except Fault Value :=
  match Text.numberOf digits with
  | .ok n => .ok (.int (if negative then -(n : Int) else n))
  | .error _ => .error (.digits digits.length)

/-- A number without its sign; one with a fraction or an exponent is a real number. -/
def readMagnitude (negative : Bool) (cs : List Char) : Except Fault (Value × List Char) :=
  match wholeDigits cs with
  | none => .error .value
  | some (whole, rest) =>
    let (fraction, rest, real) := match fractionDigits rest with
      | some (ds, rest) => (ds, rest, true)
      | none => ([], rest, false)
    let (power, rest, real) := match exponentPart rest with
      | some (x, rest) => (x, rest, true)
      | none => (0, rest, real)
    if real then
      let x := Decimal.ofScientific (Text.readDigits (whole ++ fraction)) (power - fraction.length)
      .ok (.real (if negative then -x else x), rest)
    else (readWhole negative whole).map fun v => (v, rest)

/-- The words that denote a value, with that value. -/
def words : List (List Char × Value) :=
  [("null".toList, .null), ("true".toList, .bool true), ("false".toList, .bool false),
   ("NaN".toList, .real (Float.ofBits 0x7ff8000000000000)),
   ("Infinity".toList, .real (Float.ofBits 0x7ff0000000000000)),
   ("-Infinity".toList, .real (Float.ofBits 0xfff0000000000000))]

/-- A word or a number at the start of a text. -/
def readAtom (cs : List Char) : Except Stop (Value × List Char) :=
  match words.find? fun w => w.1.isPrefixOf cs with
  | some (w, v) => .ok (v, cs.drop w.length)
  | none =>
    let number := match cs with
      | '-' :: rest => readMagnitude true rest
      | _ => readMagnitude false cs
    match number with
    | .ok r => .ok r
    | .error f => .error ⟨f, cs.length⟩

/-- How many lists and tables may be open at a time. -/
def depthLimit : Nat := 988

mutual
/-- The value at the start of a text, in which so many lists and tables may be opened. -/
def readValue : Nat → Nat → List Char → Except Stop (Value × List Char)
  | 0, _, cs => .error ⟨.value, cs.length⟩
  | fuel + 1, depth, cs =>
    match cs, depth with
    | '"' :: rest, _ => do
      let (s, rest) ← readText rest
      pure (.text s, rest)
    | '[' :: rest, 0 => .error ⟨.depth .list, rest.length⟩
    | '[' :: rest, depth + 1 =>
      match skipSpace rest with
      | ']' :: rest => pure (.list [], rest)
      | rest => do
        let (items, rest) ← readItems fuel depth rest
        pure (.list items, rest)
    | '\x7b' :: rest, 0 => .error ⟨.depth .table, rest.length⟩
    | '\x7b' :: rest, depth + 1 =>
      match skipSpace rest with
      | '\x7d' :: rest => pure (.table [], rest)
      | rest => do
        let (fields, rest) ← readFields fuel depth [] rest
        pure (.table fields, rest)
    | cs, _ => readAtom cs

/-- The elements of a list from one of them to the closing bracket. -/
def readItems : Nat → Nat → List Char → Except Stop (List Value × List Char)
  | 0, _, cs => .error ⟨.value, cs.length⟩
  | fuel + 1, depth, cs => do
    let (v, rest) ← readValue fuel depth cs
    match skipSpace rest with
    | ']' :: rest => pure ([v], rest)
    | ',' :: rest =>
      let (vs, rest) ← readItems fuel depth (skipSpace rest)
      pure (v :: vs, rest)
    | rest => .error ⟨.comma, rest.length⟩

/-- The fields of a table from one of them to the closing brace, added to those before it. -/
def readFields : Nat → Nat → Fields → List Char → Except Stop (Fields × List Char)
  | 0, _, _, cs => .error ⟨.value, cs.length⟩
  | fuel + 1, depth, fields, cs =>
    match cs with
    | '"' :: rest => do
      let (name, rest) ← readText rest
      match skipSpace rest with
      | ':' :: rest =>
        let (v, rest) ← readValue fuel depth (skipSpace rest)
        let fields := Fields.insert fields name v
        match skipSpace rest with
        | '\x7d' :: rest => pure (fields, rest)
        | ',' :: rest => readFields fuel depth fields (skipSpace rest)
        | rest => .error ⟨.comma, rest.length⟩
      | rest => .error ⟨.colon, rest.length⟩
    | cs => .error ⟨.name, cs.length⟩
end

/-- The value at the very start of a text, and the rest of the text. -/
def readLeading (cs : List Char) : Except Stop (Value × List Char) :=
  readValue (2 * cs.length + 2) depthLimit cs

/-- The value that a whole text denotes, with spaces around it. -/
def readAll (cs : List Char) : Except Stop Value :=
  match cs with
  | '\ufeff' :: _ => .error ⟨.byteOrderMark, cs.length⟩
  | _ => do
    let (v, rest) ← readLeading (skipSpace cs)
    match skipSpace rest with
    | [] => pure v
    | rest => .error ⟨.extra, rest.length⟩

/-- The value that a text denotes, or a complaint that says where it goes wrong. -/
def read (s : String) : Except Complaint Value :=
  let cs := s.toList
  match readAll cs with
  | .ok v => .ok v
  | .error e => .error ⟨e.fault, Text.points (cs.take (cs.length - e.left))⟩

/-- A value that was read, nothing in place of a malformed one; a limit that was passed is a failure. -/
def ifWellFormed (fault : ε → Fault) (r : Except ε α) : Except Failure (Option α) :=
  match r with
  | .ok x => .ok (some x)
  | .error e =>
    match (fault e).limit? with
    | some f => .error f
    | none => .ok none

/-- The value that a whole text denotes, if it denotes one. -/
def whole? (s : String) : Except Failure (Option Value) :=
  ifWellFormed Complaint.fault (read s)

/-- The value at the very start of a text, if there is one. -/
def leading? (cs : List Char) : Except Failure (Option Value) :=
  (ifWellFormed Stop.fault (readLeading cs)).map fun r => r.map (·.1)

end FixGate.Json
