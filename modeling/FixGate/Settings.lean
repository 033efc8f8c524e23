import FixGate.Files.Disk
import FixGate.Toml.Document
import FixGate.Value.Access

/-!
# Settings

What a project may set in its `remedy.toml`: what a scan leaves out, how fixes are attempted, and which
programs are used. Values that are only handed on keep whatever kind the file gives them.

* `Tools`, `Settings` : the settings and their defaults
* `Settings.ofTable` : the settings of a document
* `Settings.load` : the settings of a project directory
-/

namespace FixGate

/-- The external programs, and how long each may run. -/
structure Tools where
  timeout : Float := 120
  semgrepPath : Value := .text "semgrep"
  semgrepConfig : Value := .text "auto"
  cargoPath : Value := .text "cargo"
  mavenPath : Value := .text "mvn"
  deriving Inhabited

/-- The settings of a project. -/
structure Settings where
  exclude : Value :=
    .list [.text ".git/", .text "build/", .text "target/", .text "node_modules/", .text "venv/",
      .text ".venv/"]
  maxRetries : Int := 3
  historySize : Int := 10
  lineTolerance : Int := 5
  contextBefore : Int := 10
  contextAfter : Int := 20
  model : Value := .text "claude-sonnet-4-20250514"
  maxTokens : Int := 4000
  tools : Tools := {}
  deriving Inhabited

namespace Settings

/-- The name of the settings file. -/
def fileName : String := "remedy.toml"

/-- A setting read with `read` if the section has it, else left as it is. -/
def override (part : Value) (name : String) (read : Value → Except Failure α) (old : α) :
    Except Failure α := do
  if ← part.mentions name then read (← part.field name) else pure old

/-- The settings after a section that says what a scan leaves out. -/
def withGeneral (s : Settings) (v : Value) : Except Failure Settings := do
  pure { s with exclude := ← override v "exclude" pure s.exclude }

/-- The settings after the section of the model. -/
def withModel (s : Settings) (v : Value) : Except Failure Settings := do
  let model ← override v "model" pure s.model
  let maxTokens ← override v "max_tokens" Value.toInteger s.maxTokens
  pure { s with model, maxTokens }

/-- The settings after the section on fixes. -/
def withFix (s : Settings) (v : Value) : Except Failure Settings := do
  let maxRetries ← override v "max_retries" Value.toInteger s.maxRetries
  let historySize ← override v "history_size" Value.toInteger s.historySize
  let lineTolerance ← override v "line_tolerance" Value.toInteger s.lineTolerance
  let contextBefore ← override v "context_before" Value.toInteger s.contextBefore
  let contextAfter ← override v "context_after" Value.toInteger s.contextAfter
  withModel { s with maxRetries, historySize, lineTolerance, contextBefore, contextAfter }
    (← v.getOr "ai" (.table []))

/-- The settings after the section on external programs. -/
def withTools (s : Settings) (v : Value) : Except Failure Settings := do
  let timeout ← override v "timeout_seconds" Value.toReal s.tools.timeout
  let semgrepPath ← override v "semgrep_path" pure s.tools.semgrepPath
  let semgrepConfig ← override v "semgrep_config" pure s.tools.semgrepConfig
  let cargoPath ← override v "cargo_path" pure s.tools.cargoPath
  let mavenPath ← override v "mvn_path" pure s.tools.mavenPath
  pure { s with tools := { timeout, semgrepPath, semgrepConfig, cargoPath, mavenPath } }

/-- The settings after a section, if the document has it. -/
def withSection (doc : Fields) (name : String) (read : Settings → Value → Except Failure Settings)
    (s : Settings) : Except Failure Settings :=
  match doc.lookup name with
  | some v => read s v
  | none => .ok s

/-- The settings of a document. -/
def ofTable (doc : Fields) : Except Failure Settings := do
  let s ← withSection doc "general" withGeneral {}
  let s ← withSection doc "fix" withFix s
  withSection doc "tools" withTools s

/-- The settings of a project directory; without a settings file, the defaults. -/
def load (d : Disk) (project : Path) : Except Failure Settings := do
  let file := project.below fileName
  if !(← d.reaches file) then pure {}
  else
    match d.content file with
    | .error f => .error (.ofPath f file)
    | .ok bytes =>
      match Text.Utf8.decodeStrict bytes with
      | none => .error (.undecodable (Text.Utf8.complaint bytes))
      | some s => ofTable (← Toml.parse s)

end Settings

end FixGate
