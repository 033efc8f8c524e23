import FixGate.Decimal.Shortest
import FixGate.Files.Path
import FixGate.Text.Integer
import FixGate.Text.Quoted

/-!
# Failures

Everything that can end a step early, as causes. The wording of each cause is in one function, so that
a failure can be told to the user, to the next planning step, or to a test.

* `RoleFault`, `AnalyzerFault`, `ToolchainFault`, `ChangeFault` : failures of the program's own parts
* `ValueFault`, `ShapeFault`, `DepthFault` : values out of range, data of the wrong kind or nested too
  deeply
* `OsFault` : failures of the file system and of starting programs
* `Failure`, `Failure.message` : all of them, and their wording
-/

namespace FixGate

/-- The three parts that the model plays. -/
inductive Role where
  | planner
  | coder
  | reviewer
  deriving DecidableEq, Repr, Inhabited

/-- The name of a role. -/
def Role.name : Role → String
  | .planner => "planner"
  | .coder => "coder"
  | .reviewer => "reviewer"

/-- A role gave an answer that cannot be used. -/
inductive RoleFault where
  | blank (role : Role)
  | noList
  | noTable
  | noSteps
  | noCode
  | noVerdict
  | told (text : String)
  deriving DecidableEq, Repr

/-- The wording of a role's failure. -/
def RoleFault.message : RoleFault → String
  | .blank role => s!"Empty {role.name} response"
  | .noList => "No JSON array found in response"
  | .noTable => "No JSON object found in response"
  | .noSteps => "Planner returned no steps"
  | .noCode => "Coder returned empty code"
  | .noVerdict => "Reviewer response is missing 'passed'"
  | .told text => text

/-- An analyzer could not run, or its report could not be read. -/
inductive AnalyzerFault where
  | unreadable (file : Path)
  | absent (file : Path)
  | semgrepUnavailable
  | clippyUnavailable
  | noManifest (file : Path)
  | notStarted (tool reason : String)
  | timedOut (tool seconds : String)
  | unreadableReport (reason : String)
  | told (text : String)
  deriving DecidableEq, Repr

/-- The wording of an analyzer's failure. -/
def AnalyzerFault.message : AnalyzerFault → String
  | .unreadable file => s!"Failed to read file: {file}"
  | .absent file => s!"File not found: {file}"
  | .semgrepUnavailable => "semgrep is not available; install it with `pip install semgrep`"
  | .clippyUnavailable => "cargo clippy is not available"
  | .noManifest file => s!"Cargo.toml not found for {file}"
  | .notStarted tool reason => s!"Failed to run {tool}: {reason}"
  | .timedOut tool seconds => s!"{tool} timed out after {seconds}s"
  | .unreadableReport reason => s!"Unparseable semgrep output: {reason}"
  | .told text => text

/-- A compile check could not be set up or started. -/
inductive ToolchainFault where
  | noCommand
  | noManifest (name : String) (file : Path)
  | notStarted (program reason : String)
  | told (text : String)
  deriving DecidableEq, Repr

/-- The wording of a toolchain's failure. -/
def ToolchainFault.message : ToolchainFault → String
  | .noCommand => "No compile command found in compile_commands.json"
  | .noManifest name file => s!"{name} not found for {file}"
  | .notStarted program reason => s!"{program} is not available: {reason}"
  | .told text => text

/-- A change was asked for that the ledger cannot make. -/
inductive ChangeFault where
  | nothingPending
  | nothingApplied
  | stale (file : Path) (first last : Int)
  deriving DecidableEq, Repr

/-- The wording of a refused change. -/
def ChangeFault.message : ChangeFault → String
  | .nothingPending => "No pending change to accept"
  | .nothingApplied => "Nothing to roll back"
  | .stale file first last =>
    s!"{file} changed since the fix was generated; lines {first}-{last} no longer match"

/-- A value that is out of range. -/
inductive ValueFault where
  | untitled
  | emptyFile (file : Path)
  | noSuchLine (line : Int) (file : Path) (count : Nat)
  | startOutside (line : Int) (count : Nat)
  | unverified
  | badRange (first last : Int)
  | noHistory
  | noAttempts (retries : Int)
  | notInteger (text : String)
  | tooManyDigits (count : Nat)
  | tooLongToWrite
  | notReal (text : String)
  | noNumber
  | nullByte
  | unclosedQuote
  | trailingEscape
  | noName (file : Path)
  | told (text : String)
  deriving DecidableEq, Repr

/-- The complaint about a text that denotes no integer. -/
def ValueFault.ofInteger (text : String) : Text.IntegerFault → ValueFault
  | .malformed => .notInteger text
  | .tooLong digits => .tooManyDigits digits

/-- How much of a quoted text a complaint about an integer shows. -/
def shownOfText : Nat := 200

/-- The complaint about an integer with more digits than may be read or written, and what is known of
it. -/
def digitComplaint (known : String) : String :=
  s!"Exceeds the limit ({Text.digitLimit} digits) for integer string conversion{known}; " ++
    "use sys.set_int_max_str_digits() to increase the limit"

/-- The wording of a value out of range. -/
def ValueFault.message : ValueFault → String
  | .untitled => "SecurityIssue must have a title"
  | .emptyFile file => s!"File is empty: {file}"
  | .noSuchLine line file count => s!"Invalid line number {line} ({file} has {count} lines)"
  | .startOutside line count => s!"Start line {line} outside file of {count} lines"
  | .unverified => "PendingChange requires a passed review and a passed validation"
  | .badRange first last => s!"Invalid line range {first}-{last}"
  | .noHistory => "history_size must be at least 1"
  | .noAttempts retries => s!"max_retries must be at least 1, got {retries}"
  | .notInteger text =>
    "invalid literal for int() with base 10: " ++
      String.ofList ((Text.quoted text).toList.take shownOfText)
  | .tooManyDigits count => digitComplaint s!": value has {count} digits"
  | .tooLongToWrite => digitComplaint ""
  | .notReal text => "could not convert string to float: " ++ Text.quoted text
  | .noNumber => "cannot convert float NaN to integer"
  | .nullByte => "embedded null byte"
  | .unclosedQuote => "No closing quotation"
  | .trailingEscape => "No escaped character"
  | .noName file => Text.quoted file.text ++ " has an empty name"
  | .told text => text

/-- Data of another kind than the step at hand can use. -/
inductive ShapeFault where
  | noMember (kind member : String)
  | noItems (kind : String)
  | noSubscript (kind : String)
  | textSubscript
  | listSubscript
  | noMembership (kind : String)
  | notIntegral (kind : String)
  | notNumeric (kind : String)
  | notText (position : Nat) (kind : String)
  | notPath (kind : String)
  | notPathBelow (kind : String)
  | notSearchable (kind : String)
  deriving DecidableEq, Repr

/-- The wording of a complaint about the kind of a value. -/
def ShapeFault.message : ShapeFault → String
  | .noMember kind member => s!"'{kind}' object has no attribute '{member}'"
  | .noItems kind => s!"'{kind}' object is not iterable"
  | .noSubscript kind => s!"'{kind}' object is not subscriptable"
  | .textSubscript => "string indices must be integers, not 'str'"
  | .listSubscript => "list indices must be integers or slices, not str"
  | .noMembership kind => s!"argument of type '{kind}' is not iterable"
  | .notIntegral kind =>
    s!"int() argument must be a string, a bytes-like object or a real number, not '{kind}'"
  | .notNumeric kind => s!"float() argument must be a string or a real number, not '{kind}'"
  | .notText position kind => s!"sequence item {position}: expected str instance, {kind} found"
  | .notPath kind => s!"expected str, bytes or os.PathLike object, not {kind}"
  | .notPathBelow kind => s!"unsupported operand type(s) for /: 'PosixPath' and '{kind}'"
  | .notSearchable kind => s!"expected string or bytes-like object, got '{kind}'"

/-- A complaint about a member that a kind of value does not have, rather than about its use. -/
def ShapeFault.isMember : ShapeFault → Bool
  | .noMember _ _ => true
  | _ => false

/-- What is nested too deeply to be read. -/
inductive DepthFault where
  | list
  | table
  | document
  deriving DecidableEq, Repr

/-- The wording of a complaint about nesting. -/
def DepthFault.message : DepthFault → String
  | .list => "maximum recursion depth exceeded while decoding a JSON array from a unicode string"
  | .table => "maximum recursion depth exceeded while decoding a JSON object from a unicode string"
  | .document => "maximum recursion depth exceeded"

/-- What the operating system refused. -/
inductive OsFault where
  | absent
  | isDirectory
  | notDirectory
  | denied
  | nameTooLong
  | other
  deriving DecidableEq, Repr, Inhabited

/-- The number and the words of an operating system's refusal. -/
def OsFault.describe : OsFault → String
  | .absent => "[Errno 2] No such file or directory"
  | .isDirectory => "[Errno 21] Is a directory"
  | .notDirectory => "[Errno 20] Not a directory"
  | .denied => "[Errno 13] Permission denied"
  | .nameTooLong => "[Errno 36] File name too long"
  | .other => "[Errno 5] Input/output error"

/-- Everything that can end a step early. -/
inductive Failure where
  | role (fault : RoleFault)
  | analyzer (fault : AnalyzerFault)
  | toolchain (fault : ToolchainFault)
  | change (fault : ChangeFault)
  /-- No attempt gave a fix: the wording, the last feedback, the number of attempts, and the failure
  that ended the last of them. -/
  | generation (text feedback : String) (attempts : Int) (cause : Option Failure)
  | value (fault : ValueFault)
  | shape (fault : ShapeFault)
  | depth (fault : DepthFault)
  /-- A table has no field of a name, given as it is shown. -/
  | missingField (shown : String)
  | infinite
  | undecodable (reason : String)
  | unencodable (reason : String)
  | badSettings
  | os (fault : OsFault) (text : String)
  /-- The program that talks to the model is not installed. -/
  | noPackage
  | runtime (text : String)
  /-- The command line refuses the request with a message. -/
  | refused (text : String)
  /-- A question to the user met the end of the input. -/
  | aborted
  /-- The command line was not understood. -/
  | usage
  /-- The command ends with a status. -/
  | exit (status : Nat)
  deriving Inhabited

namespace Failure

/-- The wording of a failure. -/
def message : Failure → String
  | .role f => f.message
  | .analyzer f => f.message
  | .toolchain f => f.message
  | .change f => f.message
  | .generation text _ _ _ => text
  | .value f => f.message
  | .shape f => f.message
  | .depth f => f.message
  | .missingField shown => shown
  | .infinite => "cannot convert float infinity to integer"
  | .undecodable reason => reason
  | .unencodable reason => reason
  | .badSettings => "Invalid value"
  | .os _ text => text
  | .noPackage => "AI fixes require the anthropic package. Install with: pip install remedy[ai]"
  | .runtime text => text
  | .refused text => text
  | .aborted => ""
  | .usage => ""
  | .exit status => toString status

/-- The refusal of the operating system for a path, naming the path. -/
def refusal (f : OsFault) (p : Path) : Failure :=
  .os f (f.describe ++ ": " ++ Text.quoted p.text)

/-- The failure to reach a path: a refusal, unless no system call takes the path. -/
def ofPath (fault : PathFault) (p : Path) : Failure :=
  match fault with
  | .absent => refusal .absent p
  | .notDirectory => refusal .notDirectory p
  | .isDirectory => refusal .isDirectory p
  | .nameTooLong => refusal .nameTooLong p
  | .nullByte => .value .nullByte
  | .unencodable =>
    .unencodable ((Text.Utf8.nameComplaint? p.text).getD "")

/-- A text can be written as bytes. -/
def checkText (s : String) : Except Failure Unit :=
  match Text.Utf8.encodeComplaint? s with
  | none => .ok ()
  | some reason => .error (.unencodable reason)

/-- A value out of range, a text without bytes, or bytes that are no text. -/
def isValue : Failure → Bool
  | .value _ => true
  | .unencodable _ => true
  | .undecodable _ => true
  | _ => false

/-- A failure of one of the program's own parts, as opposed to a fault of values or of the system. -/
def isOwn : Failure → Bool
  | .role _ => true
  | .analyzer _ => true
  | .toolchain _ => true
  | .change _ => true
  | .generation _ _ _ _ => true
  | _ => false

/-- The command line ends, rather than a step. -/
def endsCommand : Failure → Bool
  | .aborted => true
  | .usage => true
  | .exit _ => true
  | _ => false

end Failure

end FixGate
