import FixGate.Failure
import FixGate.Json.Reader
import FixGate.Text.Blank
import FixGate.Text.Search
import FixGate.Text.Word

/-!
# Reading replies

A reply of the model is prose with a value or some code in it. Values in fenced blocks come first, then
whatever starts with the right bracket; code is taken from the first fenced block, or else the whole
reply is code.

A fence is three backticks. After the opening fence of a block of data may stand `json` and blanks up to
a line end; after that of a block of code, a word without blanks and a line end. A block ends at the next
fence.

The values are tried one after another, so that a limit of the reader that is passed in one of them only
counts if none before it was the right one.

* `jsonBlocks` : the contents of the blocks of data
* `firstFenced`, `firstLeading` : the first right value in blocks, and of those that start with a bracket
* `firstList`, `firstTable` : the first list or table in a reply
* `codeOf` : the code in a reply
-/

namespace FixGate.Reply

/-- Three backticks. -/
def fence : List Char := ['\x60', '\x60', '\x60']

/-- The text up to the first fence, and the text after that fence. -/
def upToFence : List Char → Option (List Char × List Char)
  | [] => none
  | c :: cs =>
    if fence.isPrefixOf (c :: cs) then some ([], cs.drop 2)
    else (upToFence cs).map fun (inside, rest) => (c :: inside, rest)

/-- The text after the last line feed among the blanks at the start of a text. -/
def afterLastFeed (cs : List Char) : Option (List Char) :=
  let blanks := cs.takeWhile Text.isBlank
  match blanks.reverse.dropWhile (· != '\n') with
  | [] => none
  | kept => some (cs.drop kept.length)

/-- The content of the block of data whose opening fence stands at the start of a text, and what follows
its closing fence. -/
def jsonBlock (cs : List Char) : Option (List Char × List Char) :=
  if fence.isPrefixOf cs then
    let rest := cs.drop 3
    let rest := if "json".toList.isPrefixOf rest then rest.drop 4 else rest
    match afterLastFeed rest with
    | none => none
    | some rest => upToFence rest
  else none

/-- The contents of the blocks of data in a text of at most `fuel` characters. -/
def jsonBlocksFrom : Nat → List Char → List (List Char)
  | 0, _ => []
  | _, [] => []
  | fuel + 1, c :: cs =>
    match jsonBlock (c :: cs) with
    | some (inside, rest) => inside :: jsonBlocksFrom fuel rest
    | none => jsonBlocksFrom fuel cs

/-- The contents of the blocks of data in a reply. -/
def jsonBlocks (text : String) : List String :=
  (jsonBlocksFrom (text.length + 1) text.toList).map String.ofList

/-- The first value of the right kind in blocks of data, blanks around them apart. -/
def firstFenced (pick : Value → Option α) : List String → Except Failure (Option α)
  | [] => .ok none
  | block :: blocks => do
    match (← Json.whole? (Text.strip block)).bind pick with
    | some x => pure (some x)
    | none => firstFenced pick blocks

/-- The first value of the right kind among those that start with a bracket, in the order of their
places. -/
def firstLeading (opener : Char) (pick : Value → Option α) : List Char → Except Failure (Option α)
  | [] => .ok none
  | c :: cs => do
    let here ← if c == opener then Json.leading? (c :: cs) else pure none
    match here.bind pick with
    | some x => pure (some x)
    | none => firstLeading opener pick cs

/-- The first value of the right kind in a reply: in blocks, and then among those that start with a
bracket. -/
def firstOf (opener : Char) (pick : Value → Option α) (text : String) : Except Failure (Option α) := do
  match ← firstFenced pick (jsonBlocks text) with
  | some x => pure (some x)
  | none => firstLeading opener pick text.toList

/-- The elements of a value that is a list. -/
def list? : Value → Option (List Value)
  | .list items => some items
  | _ => none

/-- The fields of a value that is a table. -/
def table? : Value → Option Fields
  | .table fields => some fields
  | _ => none

/-- The first list in a reply. -/
def firstList (text : String) : Except Failure (List Value) := do
  match ← firstOf '[' list? text with
  | some items => pure items
  | none => .error (.role .noList)

/-- The first table in a reply. -/
def firstTable (text : String) : Except Failure Fields := do
  match ← firstOf '\x7b' table? text with
  | some fields => pure fields
  | none => .error (.role .noTable)

/-- A character of the word after an opening fence. -/
def isInfoChar (c : Char) : Bool :=
  Text.isWord c || c == '+' || c == '-'

/-- The content of the block of code whose opening fence stands at the start of a text. -/
def codeBlock (cs : List Char) : Option (List Char) :=
  if fence.isPrefixOf cs then
    match (cs.drop 3).dropWhile isInfoChar with
    | '\n' :: rest => (upToFence rest).map (·.1)
    | _ => none
  else none

/-- The content of the first block of code in a text. -/
def firstBlock : List Char → Option (List Char)
  | [] => none
  | c :: cs => (codeBlock (c :: cs)).or (firstBlock cs)

/-- The code in a reply: the first block without the line ends at its end, or else the whole reply
without the blanks at its ends. -/
def codeOf (text : String) : String :=
  match firstBlock text.toList with
  | some inside => Text.trimEnd '\n' (String.ofList inside)
  | none => Text.strip text

end FixGate.Reply
