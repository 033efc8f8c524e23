import FixGate.Analysis.Analyzer

/-!
# Clippy

Clippy checks a whole Rust package and names files relative to the workspace that the package belongs
to, so a message counts for a file if its span's file, seen from the workspace, is that file.

* `Clippy.workspaceRoot` : the directory that spans are relative to
* `Clippy.category` : the category that a lint points to
* `Clippy.findings` : the findings of a report for one file
* `Analyzer.clippy` : the analyzer
-/

namespace FixGate

namespace Clippy

/-- The words that point to a category, in the order in which they are looked for. -/
def categoryRules : List CategoryRule := [
  ⟨["unsafe", "transmute", "undocumented_unsafe"], .unsafeCode⟩,
  ⟨["overflow", "arithmetic", "cast_possible"], .integerOverflow⟩,
  ⟨["null", "not_unsafe_ptr"], .nullDereference⟩,
  ⟨["mem_forget", "leak"], .memoryLeak⟩,
  ⟨["uninit"], .undefinedBehavior⟩,
  ⟨["mutex", "await_holding_lock"], .raceCondition⟩]

/-- The category that a lint and its message point to. -/
def category (lint message : String) : Category :=
  firstRule categoryRules (lint ++ " " ++ message) .codeQuality

/-- The heading that makes a manifest one of a workspace. -/
def workspaceHeading : String := "[workspace]"

/-- A manifest has the heading of a workspace at the start of a line. -/
def declaresWorkspace (manifest : String) : Bool :=
  (Text.splitFeeds manifest).any fun line =>
    workspaceHeading.toList.isPrefixOf (Text.stripLeftChars line.toList)

/-- The manifest in a directory is a file that declares a workspace. -/
def isWorkspace (d : Disk) (dir : Path) : Except Failure Bool := do
  match ← d.lookUp (dir.below "Cargo.toml") with
  | some (.file bytes) =>
    pure (declaresWorkspace (Text.unifyLineEnds (Text.Utf8.decodeDropping bytes)))
  | _ => pure false

/-- The directory that spans are relative to: the nearest one at or above the package that is a
workspace, or else the package. -/
def workspaceRoot (d : Disk) (package : Path) : Except Failure Path := do
  let package ← d.resolveChecked package
  pure ((← (package :: package.parents).findM? (isWorkspace d)).getD package)

/-- The first line of source that a span quotes, without the blanks at its ends. -/
def snippetOf (span : Value) : Except Failure String := do
  let quoted ← span.getOr "text" .null
  let first ← if !quoted.isTrue then pure (Value.table []) else
    match quoted with
    | .list (v :: _) => pure v
    | .text s => pure (.text (String.ofList (Text.ofPoints ((Text.pointsOf s).take 1))))
    | .table _ => throw (.missingField "0")
    | v => throw (.shape (.noSubscript v.kind))
  let line ← (← first.getOr "text" (.text "")).textFor "strip"
  pure (Text.strip line)

/-- The span's file, seen from the workspace, is the target. -/
def isAbout (d : Disk) (base target : Path) (span : Value) : Except Failure Bool := do
  let file ← span.getOr "file_name" (.text "")
  if !file.isTrue then pure false
  else
    match file with
    | .text s => pure ((← d.resolveChecked (base.join (Path.ofText s))) == target)
    | v => throw (.shape (.notPathBelow v.kind))

/-- The finding of a message about a file. -/
def finding (file : Path) (m : CargoMessage) : Except Failure Issue := do
  let line ← (← m.span.getOr "line_start" (.int 0)).toInteger
  let lint := if m.code.isTrue then m.code else .text "rustc"
  let column ← (← m.span.getOr "column_start" (.int 0)).toInteger
  let snippet ← snippetOf m.span
  reported {
    id := s!"{lint.display}:{line}"
    title := m.message
    category := category lint.display m.message.display
    place := ⟨file, line, column, snippet⟩
    severity := if Diagnostic.isError m then .high else .medium
    description := .null
    analyzer := "clippy"
    fingerprint := ""
    metadata := [("lint", lint)] }

/-- The findings of messages for one file. -/
def findingsOf (d : Disk) (base target file : Path) :
    List (Except Failure CargoMessage) → Except Failure (List Issue)
  | [] => .ok []
  | .error f :: _ => .error f
  | .ok m :: rest => do
    if ← isAbout d base target m.span then
      let i ← finding file m
      let is ← findingsOf d base target file rest
      pure (i :: is)
    else findingsOf d base target file rest

/-- The findings of a report for one file of a package. -/
def findings (d : Disk) (report : String) (file package : Path) : Except Failure (List Issue) := do
  let target ← d.resolveChecked file
  let base ← workspaceRoot d package
  findingsOf d base target file (cargoMessages report)

/-- The command that checks a package. -/
def command (tools : Tools) : List Value :=
  [tools.cargoPath, .text "clippy", .text "--message-format=json", .text "--", .text "-W",
   .text "clippy::all"]

end Clippy

/-- The analyzer that runs clippy, keeping its version in a slot. -/
def Analyzer.clippy (tools : Tools) (slot : Nat) : Analyzer where
  name := "clippy"
  family := "clippy"
  languages := [.rust]
  available := do pure (← Act.keptVersion slot [tools.cargoPath, .text "clippy"]).isSome
  version := do
    match ← Act.knownVersion slot with
    | none => pure "unavailable"
    | some v => pure (if v.isEmpty then "unavailable" else v)
  analyze file := do
    if (← Act.keptVersion slot [tools.cargoPath, .text "clippy"]).isNone then
      throw (.analyzer .clippyUnavailable)
    else
      match ← Act.ofExcept ((← Act.disk).nearestWith file "Cargo.toml") with
      | none => throw (.analyzer (.noManifest file))
      | some package =>
        let out ←
          try Act.run (Clippy.command tools) (some package) tools.timeout
          catch
            | .os _ text => throw (.analyzer (.notStarted "cargo clippy" text))
            | f => throw f
        if out.timedOut then
          throw (.analyzer (.timedOut "cargo clippy" (Decimal.exactText tools.timeout)))
        else Act.ofExcept (Clippy.findings (← Act.disk) out.stdout file package)

end FixGate
