import FixGate.Toml.Reader

/-!
# TOML documents

The statements of a document build one table. A table may be opened once by a header, an inline list
or table takes nothing more after it is written, and a table made by a dotted key is closed to later
headers and sections.

* `Draft` : the table so far, and what is closed
* `Draft.apply` : the effect of one statement
* `parse` : the table that a text denotes
-/

namespace FixGate.Toml

/-- A document under construction. -/
structure Draft where
  /-- The fields so far. -/
  fields : Fields
  /-- The table that pairs go to. -/
  home : Key
  /-- The tables that a header may not open again. -/
  opened : List Key
  /-- The tables made by dotted keys of the present section. -/
  dotted : List Key
  /-- The lists and tables written inline. -/
  closed : List Key

/-- Nothing written yet. -/
def Draft.empty : Draft := ⟨[], [], [], [], []⟩

/-- A header ends the section before it: the tables made by its dotted keys count as opened. -/
def Draft.endSection (d : Draft) : Draft :=
  { d with opened := d.dotted ++ d.opened, dotted := [] }

/-- A new table at the end of a list of tables, or the first one of a new list. -/
def appendTable (name : String) (fields : Fields) : Option Fields :=
  match fields.get? name with
  | none => some (fields.insert name (.list [.table []]))
  | some (.list items) => some (fields.insert name (.list (items ++ [.table []])))
  | some _ => none

/-- The keys of the tables that a dotted key passes through, each below the section. -/
def passedKeys (base key : Key) : List Key :=
  (List.range (key.length - 1)).map fun i => base ++ key.take (i + 1)

/-- The effect of one statement, or nothing if it breaks a rule. -/
def Draft.apply (d : Draft) : Statement → Option Draft
  | .table key => do
    let d := d.endSection
    if d.opened.contains key || leadsTo d.closed key then none
    else
      let fields ← alter true some key d.fields
      pure { d with fields, home := key, opened := key :: d.opened }
  | .element key => do
    let d := d.endSection
    if leadsTo d.closed key then none
    else
      let fields ← alter true (appendTable (key.getLast?.getD "")) key.dropLast d.fields
      pure { d with
        fields, home := key
        opened := key :: d.opened.filter fun k => !key.isPrefixOf k
        closed := d.closed.filter fun k => !key.isPrefixOf k }
  | .pair key v => do
    let passed := passedKeys d.home key
    let parent := d.home ++ key.dropLast
    if passed.any d.opened.contains || leadsTo d.closed parent then none
    else
      let fields ← alter true (addField (key.getLast?.getD "") v) parent d.fields
      pure { d with
        fields, dotted := passed ++ d.dotted
        closed := if isClosed v then (d.home ++ key) :: d.closed else d.closed }

/-- Line ends of two characters become line feeds; a carriage return elsewhere stays. -/
def joinLineEnds : List Char → List Char
  | [] => []
  | '\r' :: '\n' :: cs => '\n' :: joinLineEnds cs
  | c :: cs => c :: joinLineEnds cs

/-- The table that a text denotes. A statement that breaks a rule comes before a failure to read one
that follows it. -/
def parse (s : String) : Except Failure Fields := do
  let cs := joinLineEnds s.toList
  let (statements, failure) := readStatements (cs.length + 1) cs
  let d ← required (statements.foldlM Draft.apply Draft.empty)
  match failure with
  | none => pure d.fields
  | some f => .error f

end FixGate.Toml
