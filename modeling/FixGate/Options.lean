import FixGate.Failure
import FixGate.Text.Search

/-!
# Options of a command

A command is given words. A word that starts with two dashes names an option, whose value follows an
equals sign or is the next word; a word that starts with one dash names options of one letter each, of
which the first that takes a value takes the rest of the word, or else the next word. A value may itself
start with a dash. Two dashes alone end the options, and a dash alone is an ordinary word.

* `OptionSpec` : an option, with its names and whether it takes a value
* `Given` : what the words of a command come to
* `Given.ofWords` : reading the words
* `Given.has`, `Given.valueOf` : what was given for an option, the last word counting
-/

namespace FixGate

/-- An option of a command: its key, its letter if it has one, and whether it takes a value. -/
structure OptionSpec where
  key : String
  letter : Option Char
  takesValue : Bool
  deriving DecidableEq, Repr

/-- The options given to a command, in order, and its other words. -/
structure Given where
  options : List (String × String)
  words : List String
  deriving DecidableEq, Repr, Inhabited

namespace Given

/-- What one word with a dash comes to: options, of which the last may lack its value. -/
structure Reading where
  options : List (String × String)
  lacking : Option String
  deriving DecidableEq, Repr

/-- The options that a word of letters names. -/
def readLetters (specs : List OptionSpec) : List Char → Except Failure Reading
  | [] => .ok ⟨[], none⟩
  | c :: cs =>
    match specs.find? fun s => s.letter == some c with
    | none => .error .usage
    | some s =>
      if s.takesValue then
        .ok (if cs.isEmpty then ⟨[], some s.key⟩ else ⟨[(s.key, String.ofList cs)], none⟩)
      else do
        let r ← readLetters specs cs
        pure { r with options := (s.key, "") :: r.options }

/-- The option that a word after two dashes names. -/
def readLong (specs : List OptionSpec) (word : List Char) : Except Failure Reading :=
  let key := String.ofList (Text.before '=' word)
  let value := (word.dropWhile (· != '=')).tail?
  match specs.find? fun s => s.key == key, value with
  | none, _ => .error .usage
  | some s, none => .ok (if s.takesValue then ⟨[], some s.key⟩ else ⟨[(s.key, "")], none⟩)
  | some s, some v => if s.takesValue then .ok ⟨[(s.key, String.ofList v)], none⟩ else .error .usage

/-- The options that a word names, nothing if it names none. -/
def readWord (specs : List OptionSpec) (word : String) : Except Failure (Option Reading) :=
  match word.toList with
  | '-' :: '-' :: rest => some <$> readLong specs rest
  | '-' :: c :: rest => some <$> readLetters specs (c :: rest)
  | _ => .ok none

/-- Options before all others given. -/
def prepend (options : List (String × String)) (g : Given) : Given :=
  { g with options := options ++ g.options }

/-- The words of a command read. Where options may not stand behind other words, the first of these ends
the options. -/
def ofWords (specs : List OptionSpec) (mixed : Bool) : List String → Except Failure Given
  | [] => .ok ⟨[], []⟩
  | word :: rest =>
    if word == "--" then .ok ⟨[], rest⟩
    else
      match readWord specs word with
      | .error f => .error f
      | .ok none =>
        if mixed then do
          let g ← ofWords specs mixed rest
          pure { g with words := word :: g.words }
        else .ok ⟨[], word :: rest⟩
      | .ok (some ⟨options, none⟩) => prepend options <$> ofWords specs mixed rest
      | .ok (some ⟨options, some key⟩) =>
        match rest with
        | [] => .error .usage
        | value :: rest => prepend (options ++ [(key, value)]) <$> ofWords specs mixed rest

/-- An option was given. -/
def has (g : Given) (key : String) : Bool :=
  (g.options.lookup key).isSome

/-- The value given for an option last. -/
def valueOf (g : Given) (key : String) : Option String :=
  g.options.reverse.lookup key

end Given

end FixGate
