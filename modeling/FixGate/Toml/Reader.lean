import FixGate.Decimal.Reading
import FixGate.Failure
import FixGate.Text.Point
import FixGate.Text.Search
import FixGate.Value

/-!
# Reading TOML

A document is a sequence of statements: headers of tables, headers of tables inside lists, and pairs
of a dotted key and a value. This module reads the statements; `FixGate.Toml.Document` builds the
table from them. The steps below values return what they read and the rest of the text, or nothing if
the text does not follow the grammar. From values on, a step tells what is wrong: besides the grammar,
integers in base ten can have too many digits, and values can be nested too deeply.

* `Key`, `Statement` : dotted keys and statements
* `readValue` : a value, including nested lists and inline tables
* `readStatements` : the statements of a document
-/

namespace FixGate.Toml

/-- A dotted key: the names from the outermost table to the field. -/
abbrev Key := List String

/-- A space or a tab. -/
def isSpace (c : Char) : Bool :=
  c == ' ' || c == '\t'

/-- The text after spaces and tabs. -/
def skipSpace (cs : List Char) : List Char :=
  cs.dropWhile isSpace

/-- A control character, the tab excepted. -/
def isControl (c : Char) : Bool :=
  (c.toNat < 32 && c != '\t') || c.toNat == 127

/-- The text after a comment, if one starts it; a comment holds no control characters. -/
def skipComment (cs : List Char) : Option (List Char) :=
  match cs with
  | '#' :: rest =>
    if (rest.takeWhile (· != '\n')).any isControl then none
    else some (rest.dropWhile (· != '\n'))
  | _ => some cs

/-- The text after the spaces, line ends and comments that may stand between elements of a list, given
whether it begins inside a comment. -/
def skipFillerFrom (inComment : Bool) : List Char → Option (List Char)
  | [] => some []
  | c :: cs =>
    if c == '\n' then skipFillerFrom false cs
    else if inComment then if isControl c then none else skipFillerFrom true cs
    else if isSpace c then skipFillerFrom false cs
    else if c == '#' then skipFillerFrom true cs
    else some (c :: cs)

/-- The text after the spaces, line ends and comments that may stand between elements of a list. -/
def skipFiller (cs : List Char) : Option (List Char) :=
  skipFillerFrom false cs

/-- A character of a key that needs no quotes. -/
def isBare (c : Char) : Bool :=
  c.isAlphanum || c == '-' || c == '_'

/-- What stands for a code point, unless it is half of a pair or out of range. -/
def scalar? (n : Nat) : Option (List Char) :=
  if n.isValidChar then some (Text.ofPoint n) else none

/-- The number written by the first `width` characters, all digits of base sixteen. -/
def hexNumber (width : Nat) (cs : List Char) : Option (Nat × List Char) :=
  let ds := cs.take width
  if ds.length == width then
    (ds.mapM Text.hexValue?).map fun vs => (vs.foldl (fun n v => 16 * n + v) 0, cs.drop width)
  else none

/-- What an escape denotes, given the text after its backslash. -/
def readEscape : List Char → Option (List Char × List Char)
  | 'b' :: cs => some (['\x08'], cs)
  | 't' :: cs => some (['\t'], cs)
  | 'n' :: cs => some (['\n'], cs)
  | 'f' :: cs => some (['\x0c'], cs)
  | 'r' :: cs => some (['\r'], cs)
  | '"' :: cs => some (['"'], cs)
  | '\\' :: cs => some (['\\'], cs)
  | 'u' :: cs => do
    let (n, rest) ← hexNumber 4 cs
    pure (← scalar? n, rest)
  | 'U' :: cs => do
    let (n, rest) ← hexNumber 8 cs
    pure (← scalar? n, rest)
  | _ => none

/-- The characters up to a closing double quote on the same line. -/
def readBasic : Nat → List Char → List Char → Option (String × List Char)
  | 0, _, _ => none
  | _, _, [] => none
  | fuel + 1, read, c :: cs =>
    if c == '"' then some (String.ofList read.reverse, cs)
    else if c == '\\' then do
      let (xs, rest) ← readEscape cs
      readBasic fuel (xs.reverse ++ read) rest
    else if isControl c then none
    else readBasic fuel (c :: read) cs

/-- The text after a backslash that ends its line: the blanks up to the next visible character. -/
def skipFold (cs : List Char) : Option (List Char) :=
  match skipSpace cs with
  | [] => some []
  | '\n' :: rest => some (rest.dropWhile fun c => isSpace c || c == '\n')
  | _ => none

/-- The characters up to three closing double quotes, over several lines. -/
def readBasicBlock : Nat → List Char → List Char → Option (String × List Char)
  | 0, _, _ => none
  | _, _, [] => none
  | fuel + 1, read, c :: cs =>
    if c == '"' then
      match cs with
      | '"' :: '"' :: rest => some (String.ofList read.reverse, rest)
      | _ => readBasicBlock fuel (c :: read) cs
    else if c == '\\' then
      match cs with
      | [] => none
      | d :: _ =>
        if isSpace d || d == '\n' then do
          let rest ← skipFold cs
          readBasicBlock fuel read rest
        else do
          let (xs, rest) ← readEscape cs
          readBasicBlock fuel (xs.reverse ++ read) rest
    else if isControl c && c != '\n' then none
    else readBasicBlock fuel (c :: read) cs

/-- The characters up to a closing single quote on the same line. -/
def readLiteral (cs : List Char) : Option (String × List Char) :=
  let s := cs.takeWhile (· != '\x27')
  match cs.dropWhile (· != '\x27') with
  | [] => none
  | _ :: rest => if s.any isControl then none else some (String.ofList s, rest)

/-- The characters up to three closing single quotes, over several lines. -/
def readLiteralBlock : List Char → List Char → Option (String × List Char)
  | _, [] => none
  | read, '\x27' :: '\x27' :: '\x27' :: rest => some (String.ofList read.reverse, rest)
  | read, c :: cs => if isControl c && c != '\n' then none else readLiteralBlock (c :: read) cs

/-- Up to two quotes that stand directly before the three closing ones belong to the text. -/
def extraQuotes (quote : Char) (s : String) (cs : List Char) : String × List Char :=
  match cs with
  | a :: b :: rest =>
    if a == quote && b == quote then (s ++ String.ofList [quote, quote], rest)
    else if a == quote then (s ++ String.ofList [quote], b :: rest)
    else (s, cs)
  | [a] => if a == quote then (s ++ String.ofList [quote], []) else (s, cs)
  | [] => (s, cs)

/-- The text of a block without a line end at its very start. -/
def blockStart : List Char → List Char
  | '\n' :: cs => cs
  | cs => cs

/-- A quoted text of any of the four forms. -/
def readQuoted : List Char → Option (String × List Char)
  | '"' :: '"' :: '"' :: cs =>
    (readBasicBlock (cs.length + 1) [] (blockStart cs)).map fun (s, rest) => extraQuotes '"' s rest
  | '"' :: cs => readBasic (cs.length + 1) [] cs
  | '\x27' :: '\x27' :: '\x27' :: cs =>
    (readLiteralBlock [] (blockStart cs)).map fun (s, rest) => extraQuotes '\x27' s rest
  | '\x27' :: cs => readLiteral cs
  | _ => none

/-- One name of a dotted key. -/
def readName : List Char → Option (String × List Char)
  | '\x27' :: cs => readLiteral cs
  | '"' :: cs => readBasic (cs.length + 1) [] cs
  | cs =>
    match cs.takeWhile isBare with
    | [] => none
    | name => some (String.ofList name, cs.dropWhile isBare)

/-- A dotted key and the spaces after it. -/
def readKey : Nat → List Char → Option (Key × List Char)
  | 0, _ => none
  | fuel + 1, cs => do
    let (name, rest) ← readName cs
    match skipSpace rest with
    | '.' :: rest =>
      let (names, rest) ← readKey fuel (skipSpace rest)
      pure (name :: names, rest)
    | rest => pure ([name], rest)

/-- The first `n` characters as a number, if they are all plain digits. -/
def fixedDigits (n : Nat) (cs : List Char) : Option (Nat × List Char) :=
  let ds := cs.take n
  if ds.length == n && ds.all Char.isDigit then some (Text.readDigits ds, cs.drop n) else none

/-- The text after a given character. -/
def skipChar (c : Char) : List Char → Option (List Char)
  | [] => none
  | d :: ds => if d == c then some ds else none

/-- The text after a time of day. -/
def skipTime (cs : List Char) : Option (List Char) := do
  let (hour, cs) ← fixedDigits 2 cs
  let cs ← skipChar ':' cs
  let (minute, cs) ← fixedDigits 2 cs
  let cs ← skipChar ':' cs
  let (second, cs) ← fixedDigits 2 cs
  if 23 < hour || 59 < minute || 59 < second then none
  else
    match cs with
    | '.' :: rest =>
      if (rest.takeWhile Char.isDigit).isEmpty then pure cs else pure (rest.dropWhile Char.isDigit)
    | _ => pure cs

/-- The text after an offset from universal time, if one starts it. -/
def skipOffset (cs : List Char) : List Char :=
  match cs with
  | [] => []
  | c :: rest =>
    if c == 'Z' || c == 'z' then rest
    else if c == '+' || c == '-' then
      let ends := do
        let (hour, more) ← fixedDigits 2 rest
        let more ← skipChar ':' more
        let (minute, more) ← fixedDigits 2 more
        if 23 < hour || 59 < minute then none else pure more
      ends.getD cs
    else cs

/-- The number of days of a month. -/
def daysOf (year month : Nat) : Nat :=
  if month == 2 then
    if year % 4 == 0 && (year % 100 != 0 || year % 400 == 0) then 29 else 28
  else if month == 4 || month == 6 || month == 9 || month == 11 then 30
  else 31

/-- What a text that may begin with a date turns out to hold. -/
inductive Dated where
  | none
  | wrong
  | upTo (kind : MomentKind) (rest : List Char)

/-- The text after a date, with a time and an offset if they follow; a day that does not exist is a
fault. -/
def skipDate (cs : List Char) : Dated :=
  let date := do
    let (year, cs) ← fixedDigits 4 cs
    let cs ← skipChar '-' cs
    let (month, cs) ← fixedDigits 2 cs
    let cs ← skipChar '-' cs
    let (day, cs) ← fixedDigits 2 cs
    if month == 0 || 12 < month || day == 0 || 31 < day then none else pure (year, month, day, cs)
  match date with
  | none => .none
  | some (year, month, day, rest) =>
    if year == 0 || daysOf year month < day then .wrong
    else
      match rest with
      | c :: more =>
        if c == 'T' || c == 't' || c == ' ' then
          match skipTime more with
          | some more => .upTo .dayTime (skipOffset more)
          | none => .upTo .day rest
        else .upTo .day rest
      | [] => .upTo .day rest

/-- Digits of a base with single underscores between them. -/
def baseDigits (isDigit : Char → Bool) (afterDigit : Bool) : List Char → List Char × List Char
  | [] => ([], [])
  | '_' :: d :: rest =>
    if afterDigit && isDigit d then
      let (ds, left) := baseDigits isDigit true rest
      (d :: ds, left)
    else ([], '_' :: d :: rest)
  | c :: cs =>
    if isDigit c then
      let (ds, left) := baseDigits isDigit true cs
      (c :: ds, left)
    else ([], c :: cs)

/-- What a number denotes, unless it has too many digits, and the text after it. -/
abbrev Numeral := Except Failure Value × List Char

/-- A number written with a base after a leading zero. -/
def readBased : List Char → Option Numeral
  | '0' :: mark :: cs =>
    let base := if mark == 'x' then 16 else if mark == 'o' then 8 else if mark == 'b' then 2 else 0
    let isDigit c := match Text.hexValue? c with
      | some v => decide (v < base)
      | none => false
    match baseDigits isDigit false cs with
    | ([], _) => none
    | (ds, rest) =>
      some (.ok (.int (ds.foldl (fun n c => base * n + (Text.hexValue? c).getD 0) 0 : Nat)), rest)
  | _ => none

/-- Digits of the whole part: a zero alone, or digits that do not begin with one. -/
def wholeDigits : List Char → Option (List Char × List Char)
  | '0' :: cs => some (['0'], cs)
  | cs =>
    match baseDigits Char.isDigit false cs with
    | ([], _) => none
    | r => some r

/-- The number written by the digits of an integer in base ten. -/
def readWhole (negative : Bool) (digits : List Char) : Except Failure Value :=
  match Text.numberOf digits with
  | .ok n => .ok (.int (if negative then -(n : Int) else n))
  | .error _ => .error (.value (.tooManyDigits digits.length))

/-- A whole or real number in base ten, after its sign. -/
def readDecimal (negative : Bool) (cs : List Char) : Option Numeral := do
  let (whole, rest) ← wholeDigits cs
  let (fraction, rest, real) := match rest with
    | '.' :: more =>
      match baseDigits Char.isDigit false more with
      | ([], _) => ([], rest, false)
      | (ds, more) => (ds, more, true)
    | _ => ([], rest, false)
  let (power, rest, real) : Int × List Char × Bool := match rest with
    | e :: more =>
      if e == 'e' || e == 'E' then
        let (sign, more) : Int × List Char := match more with
          | '-' :: more => (-1, more)
          | '+' :: more => (1, more)
          | more => (1, more)
        match baseDigits Char.isDigit false more with
        | ([], _) => (0, rest, real)
        | (ds, more) => (sign * Text.readDigits ds, more, true)
      else (0, rest, real)
    | [] => (0, rest, real)
  if real then
    let x := Decimal.ofScientific (Text.readDigits (whole ++ fraction)) (power - fraction.length)
    pure (.ok (.real (if negative then -x else x)), rest)
  else pure (readWhole negative whole, rest)

/-- The words for infinity and no number, after their sign. -/
def readSpecial (negative : Bool) : List Char → Option Numeral
  | 'i' :: 'n' :: 'f' :: cs =>
    some (.ok (.real (if negative then -Decimal.infinity else Decimal.infinity)), cs)
  | 'n' :: 'a' :: 'n' :: cs => some (.ok (.real Decimal.notANumber), cs)
  | _ => none

/-- A number in any form. -/
def readNumber (cs : List Char) : Option Numeral :=
  match readBased cs with
  | some r => some r
  | none =>
    match cs with
    | '-' :: rest => (readDecimal true rest).or (readSpecial true rest)
    | '+' :: rest => (readDecimal false rest).or (readSpecial false rest)
    | _ => (readDecimal false cs).or (readSpecial false cs)

/-- What a step below values read, which must be there. -/
def required (r : Option α) : Except Failure α :=
  match r with
  | some x => .ok x
  | none => .error .badSettings

/-- A moment at the start of a text, given the text after it. -/
def momentAt (kind : MomentKind) (cs rest : List Char) : Value × List Char :=
  (.moment kind (String.ofList (cs.take (cs.length - rest.length))), rest)

/-- A date, a time or a number. -/
def readScalar (cs : List Char) : Except Failure (Value × List Char) :=
  match skipDate cs with
  | .wrong => .error .badSettings
  | .upTo kind rest => .ok (momentAt kind cs rest)
  | .none =>
    match skipTime cs with
    | some rest => .ok (momentAt .time cs rest)
    | none => do
      let (v, rest) ← required (readNumber cs)
      pure (← v, rest)

/-- The field of a table at the end of a key is reached through the tables before it, which come into
being on the way; the change may refuse. Where lists may be entered, their last element is meant. -/
def alter (enterLists : Bool) (change : Fields → Option Fields) : Key → Fields → Option Fields
  | [], fields => change fields
  | name :: names, fields => do
    let inner ← match fields.get? name with
      | none => (alter enterLists change names []).map Value.table
      | some (.table inner) => (alter enterLists change names inner).map Value.table
      | some (.list items) =>
        if enterLists then
          match items.getLast? with
          | some (.table inner) =>
            (alter enterLists change names inner).map fun t => Value.list (items.dropLast ++ [.table t])
          | _ => none
        else none
      | _ => none
    pure (fields.insert name inner)

/-- A field that is not there yet is added. -/
def addField (name : String) (v : Value) (fields : Fields) : Option Fields :=
  if (fields.get? name).isSome then none else some (fields.insert name v)

/-- A list or a table, to which nothing may be added after it is written inline. -/
def isClosed : Value → Bool
  | .list _ => true
  | .table _ => true
  | _ => false

/-- One of the keys stands at the start of another. -/
def leadsTo (starts : List Key) (key : Key) : Bool :=
  starts.any fun s => s.isPrefixOf key

/-- How much nesting a value may take up. -/
def depthLimit : Nat := 988

/-- How much of it a list takes up. -/
def listDepth : Nat := 2

/-- How much of it an inline table takes up. -/
def tableDepth : Nat := 3

/-- What is left for the elements of a list or table that takes up so much. -/
def deeper (depth needed : Nat) : Except Failure Nat :=
  if depth < needed then .error (.depth .document) else .ok (depth - needed)

mutual
/-- A value of any kind, given how much nesting it may take up. -/
def readValue : Nat → Nat → List Char → Except Failure (Value × List Char)
  | 0, _, _ => .error .badSettings
  | fuel + 1, depth, cs =>
    match cs with
    | '"' :: _ => (required (readQuoted cs)).map fun (s, rest) => (.text s, rest)
    | '\x27' :: _ => (required (readQuoted cs)).map fun (s, rest) => (.text s, rest)
    | 't' :: 'r' :: 'u' :: 'e' :: rest => .ok (.bool true, rest)
    | 'f' :: 'a' :: 'l' :: 's' :: 'e' :: rest => .ok (.bool false, rest)
    | '[' :: rest => do
      let depth ← deeper depth listDepth
      let (items, rest) ← readItems fuel depth rest
      pure (.list items, rest)
    | '\x7b' :: rest => do
      let depth ← deeper depth tableDepth
      match skipSpace rest with
      | '\x7d' :: rest => pure (.table [], rest)
      | rest =>
        let (fields, rest) ← readInline fuel depth [] [] rest
        pure (.table fields, rest)
    | cs => readScalar cs

/-- The elements of a list up to its closing bracket; a comma may stand after the last one. -/
def readItems : Nat → Nat → List Char → Except Failure (List Value × List Char)
  | 0, _, _ => .error .badSettings
  | fuel + 1, depth, cs => do
    match ← required (skipFiller cs) with
    | ']' :: rest => pure ([], rest)
    | cs =>
      let (v, rest) ← readValue fuel depth cs
      match ← required (skipFiller rest) with
      | ']' :: rest => pure ([v], rest)
      | ',' :: rest =>
        let (vs, rest) ← readItems fuel depth rest
        pure (v :: vs, rest)
      | _ => .error .badSettings

/-- The fields of an inline table up to its closing brace, given those read and the keys that are
closed. -/
def readInline : Nat → Nat → Fields → List Key → List Char → Except Failure (Fields × List Char)
  | 0, _, _, _, _ => .error .badSettings
  | fuel + 1, depth, fields, closed, cs => do
    let (key, rest) ← required (readKey (cs.length + 1) cs)
    let rest ← required (skipChar '=' rest)
    let (v, rest) ← readValue fuel depth (skipSpace rest)
    if leadsTo closed key then .error .badSettings
    else
      let fields ← required (alter false (addField (key.getLast?.getD "") v) key.dropLast fields)
      match skipSpace rest with
      | '\x7d' :: rest => pure (fields, rest)
      | ',' :: rest =>
        readInline fuel depth fields (if isClosed v then key :: closed else closed) (skipSpace rest)
      | _ => .error .badSettings
end

/-- A statement of a document. -/
inductive Statement where
  | table (key : Key)
  | element (key : Key)
  | pair (key : Key) (v : Value)

/-- The header at the start of a line that holds one. -/
def readHeader (cs : List Char) : Option (Statement × List Char) :=
  match cs with
  | '[' :: '[' :: rest => do
    let (key, rest) ← readKey (rest.length + 1) (skipSpace rest)
    let rest ← skipChar ']' rest
    let rest ← skipChar ']' rest
    pure (.element key, rest)
  | '[' :: rest => do
    let (key, rest) ← readKey (rest.length + 1) (skipSpace rest)
    let rest ← skipChar ']' rest
    pure (.table key, rest)
  | _ => none

/-- The statement at the start of a line that holds one. -/
def readStatement (cs : List Char) : Except Failure (Statement × List Char) :=
  match cs with
  | '[' :: _ => required (readHeader cs)
  | cs => do
    let (key, rest) ← required (readKey (cs.length + 1) cs)
    let rest ← required (skipChar '=' rest)
    let (v, rest) ← readValue (2 * rest.length + 2) depthLimit (skipSpace rest)
    pure (.pair key v, rest)

/-- The statements of a document whose lines end in line feeds, up to the first failure if there is
one. -/
def readStatements : Nat → List Char → List Statement × Option Failure
  | 0, _ => ([], some .badSettings)
  | fuel + 1, cs =>
    match skipSpace cs with
    | [] => ([], none)
    | '\n' :: rest => readStatements fuel rest
    | cs =>
      let line : Except Failure (List Statement × List Char) := match cs with
        | '#' :: _ => .ok ([], cs)
        | _ => (readStatement cs).map fun (s, rest) => ([s], rest)
      match line with
      | .error f => ([], some f)
      | .ok (found, rest) =>
        match skipComment (skipSpace rest) with
        | some [] => (found, none)
        | some ('\n' :: rest) =>
          let (more, failure) := readStatements fuel rest
          (found ++ more, failure)
        | _ => (found, some .badSettings)

end FixGate.Toml
