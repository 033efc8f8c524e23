import FixGate.Act.Programs
import FixGate.Issue.Basic

/-!
# Analyzers

An analyzer reports findings in one file at a time. Its family is the name under which a finding
remembers who reported it.

* `Analyzer` : what every analyzer can do
* `reported` : a finding as an analyzer reports it
* `firstRule` : the first rule of a list that a text meets
-/

namespace FixGate

/-- Something that reports findings in source files. -/
structure Analyzer where
  name : String
  family : String
  languages : List Language
  /-- The analyzer can run here. -/
  available : Act Bool
  /-- The version of the analyzer, as far as it is known. -/
  version : Act String
  /-- The findings in a file. -/
  analyze : Path → Act (List Issue)

/-- An analyzer reads the language of a file. -/
def Analyzer.supports (a : Analyzer) (file : Path) : Bool :=
  a.languages.contains (Language.ofPath file)

/-- A finding as an analyzer reports it: without a description the title stands in. -/
def reported (i : Issue) : Except Failure Issue :=
  Issue.make { i with description := if i.description.isTrue then i.description else i.title }

/-- Words that point to a category. -/
structure CategoryRule where
  needles : List String
  category : Category

/-- The category of the first rule with a word in a text. -/
def firstRule (rules : List CategoryRule) (text : String) (otherwise : Category) : Category :=
  match rules.find? fun r => Text.containsAny (Text.lower text) r.needles with
  | some r => r.category
  | none => otherwise

end FixGate
