import FixGate.Json.Reader
import FixGate.Text.Blank
import FixGate.Text.Lines
import FixGate.Value.Access

/-!
# Messages of cargo

Cargo prints one record a line. A compiler message among them has a level, a text, a code and spans of
source, of which the first one marked primary counts, or else the first one. Lines that hold no record
and records of other kinds are passed over.

A record that is not shaped like this is a failure only where it is reached, so the messages are a list
of outcomes, one for each compiler message.

* `CargoMessage` : a message with its span
* `CargoMessage.ofRecord` : the message of a record, if it is one
* `cargoMessages` : the messages in a report
-/

namespace FixGate

/-- A compiler message and the span of source that it is about. -/
structure CargoMessage where
  level : Value
  message : Value
  code : Value
  span : Value
  deriving Inhabited

namespace CargoMessage

/-- The value of a field, or a default if it is missing, null, zero or empty. -/
def fieldOr (v : Value) (name : String) (default : Value) : Except Failure Value := do
  let x ← v.getOr name .null
  pure (if x.isTrue then x else default)

/-- The first span marked primary. -/
def firstPrimary : List Value → Except Failure (Option Value)
  | [] => .ok none
  | s :: rest => do
    if (← s.getOr "is_primary" .null).isTrue then pure (some s) else firstPrimary rest

/-- The span that counts among the spans of a message. -/
def primarySpan (spans : Value) : Except Failure Value := do
  let items ← spans.elements
  match spans, items with
  | .table _, _ => .error (.missingField "0")
  | _, [] => .error (.missingField "0")
  | _, first :: _ => pure ((← firstPrimary items).getD first)

/-- The message of a record, if the record is one of the compiler's. -/
def ofRecord (record : Value) : Except Failure (Option CargoMessage) := do
  match ← record.getOr "reason" .null with
  | .text "compiler-message" =>
    let message ← fieldOr record "message" (.table [])
    let spans ← fieldOr message "spans" (.list [.table []])
    let span ← primarySpan spans
    let code ← fieldOr message "code" (.table [])
    let level ← message.getOr "level" (.text "error")
    let text ← message.getOr "message" (.text "")
    let code ← match code with
      | .table fields => pure ((fields.lookup "code").getD (.text ""))
      | _ => pure (.text "")
    pure (some { level, message := text, code, span })
  | _ => pure none

/-- The message on a line of a report, if there is one. -/
def ofLine (line : String) : Except Failure (Option CargoMessage) := do
  let line := Text.strip line
  if !Text.startsWith line "\x7b" then pure none
  else
    match ← Json.whole? line with
    | some record => ofRecord record
    | none => pure none

end CargoMessage

/-- The messages in the lines of a report, or the failures in their place. -/
def cargoMessagesOf (lines : List String) : List (Except Failure CargoMessage) :=
  lines.filterMap fun line =>
    match CargoMessage.ofLine line with
    | .ok (some m) => some (.ok m)
    | .ok none => none
    | .error f => some (.error f)

/-- The messages in a report, or the failures in their place. -/
def cargoMessages (report : String) : List (Except Failure CargoMessage) :=
  cargoMessagesOf (Text.breakLines report)

end FixGate
