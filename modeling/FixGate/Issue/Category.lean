import FixGate.Text.Blank
import FixGate.Text.Case
import FixGate.Text.Search

/-!
# Categories of findings

The kinds of weakness that findings are sorted into. A category is known by its key and by its title,
and a hyphen in a key counts as an underscore.

* `Category.parse` : the category that a name denotes
-/

namespace FixGate

/-- A kind of weakness. -/
inductive Category where
  | bufferOverflow
  | useAfterFree
  | memoryLeak
  | nullDereference
  | doubleFree
  | raceCondition
  | deadlock
  | sqlInjection
  | commandInjection
  | pathTraversal
  | formatString
  | weakCrypto
  | hardcodedSecret
  | insecureRandom
  | resourceLeak
  | integerOverflow
  | unsafeCode
  | codeQuality
  | undefinedBehavior
  | unknown
  deriving DecidableEq, Repr, Inhabited

namespace Category

/-- All categories, in the order in which a name is looked up. -/
def all : List Category :=
  [.bufferOverflow, .useAfterFree, .memoryLeak, .nullDereference, .doubleFree, .raceCondition,
   .deadlock, .sqlInjection, .commandInjection, .pathTraversal, .formatString, .weakCrypto,
   .hardcodedSecret, .insecureRandom, .resourceLeak, .integerOverflow, .unsafeCode, .codeQuality,
   .undefinedBehavior, .unknown]

/-- The word that stands for a category in data. -/
def key : Category → String
  | .bufferOverflow => "buffer_overflow"
  | .useAfterFree => "use_after_free"
  | .memoryLeak => "memory_leak"
  | .nullDereference => "null_dereference"
  | .doubleFree => "double_free"
  | .raceCondition => "race_condition"
  | .deadlock => "deadlock"
  | .sqlInjection => "sql_injection"
  | .commandInjection => "command_injection"
  | .pathTraversal => "path_traversal"
  | .formatString => "format_string"
  | .weakCrypto => "weak_crypto"
  | .hardcodedSecret => "hardcoded_secret"
  | .insecureRandom => "insecure_random"
  | .resourceLeak => "resource_leak"
  | .integerOverflow => "integer_overflow"
  | .unsafeCode => "unsafe_code"
  | .codeQuality => "code_quality"
  | .undefinedBehavior => "undefined_behavior"
  | .unknown => "unknown"

/-- The words that stand for a category in reports. -/
def title : Category → String
  | .bufferOverflow => "Buffer Overflow"
  | .useAfterFree => "Use After Free"
  | .memoryLeak => "Memory Leak"
  | .nullDereference => "Null Pointer Dereference"
  | .doubleFree => "Double Free"
  | .raceCondition => "Race Condition"
  | .deadlock => "Deadlock"
  | .sqlInjection => "SQL Injection"
  | .commandInjection => "Command Injection"
  | .pathTraversal => "Path Traversal"
  | .formatString => "Format String Vulnerability"
  | .weakCrypto => "Weak Cryptography"
  | .hardcodedSecret => "Hardcoded Secret"
  | .insecureRandom => "Insecure Random"
  | .resourceLeak => "Resource Leak"
  | .integerOverflow => "Integer Overflow"
  | .unsafeCode => "Unsafe Code Usage"
  | .codeQuality => "Code Quality"
  | .undefinedBehavior => "Undefined Behavior"
  | .unknown => "Unknown Issue"

/-- The category with a key. -/
def ofKey? (s : String) : Option Category :=
  all.find? fun c => c.key == s

/-- The category that a key or a title denotes, whatever its case and the blanks around it. -/
def parse (s : String) : Category :=
  let word := Text.lower (Text.strip s)
  let key := Text.replaceChar '-' '_' word
  (all.find? fun c => c.key == key || Text.lower c.title == word).getD .unknown

theorem mem_all (c : Category) : c ∈ all := by
  cases c <;> decide

end Category

end FixGate
