import RouteCompiler.Files.Tree
import RouteCompiler.Json.Reader
import RouteCompiler.Schema.Problem

/-!
What can go wrong. Compile errors are the library's own: they have a wording for the user, and the
command line turns them into "no output". Everything else is a breakdown that no part of the
library handles. Where a wording would quote the report of a document reader, a mark in angle
brackets stands for that report.
-/

namespace RouteCompiler

/-- What is wrong with the rules of a rule-filter step. -/
inductive RuleError
  | notJson (fault : String)
  | notList
  | incomplete (rule : Json)
  | unknownPredicate (predicate : String)
  deriving Repr

/-- The words that join rules. -/
def predicateNames : List String := ["AND", "OR"]

def RuleError.message : RuleError → String
  | .notJson fault => s!"rules are not valid JSON: {fault}"
  | .notList => "rules must be a JSON list"
  | .incomplete rule => s!"every rule needs a 'path' and an 'op', got {rule.shown}"
  | .unknownPredicate p =>
    let names := ", ".intercalate predicateNames
    s!"unknown predicate '{p}' (expected one of {names})"

inductive CompileError
  /-- The document of a request is no mapping. -/
  | requestForm
  | requestProblems (problems : List Schema.Problem)
  | requestMalformed
  | requestUnreadable (path : Path) (e : FileError)
  /-- The rules of the step at this position, counted from one. -/
  | rules (position : Int) (e : RuleError)
  | settingsUnreadable (path : Path) (e : FileError)
  | settingsMalformed (path : Path)
  | settingsForm (path : Path)
  | settingsProblems (path : Path) (problems : List Schema.Problem)
  | unknownStepKind (kind : String)
  | connectorNotFound (id : Option String)
  | missingResource (name : String) (overridePath : Option String)
  | malformedCoordinate (text : String)
  deriving Repr

/-- The text of an optional text in a message. -/
def orNone (s : Option String) : String := s.getD "None"

def CompileError.message : CompileError → String
  | .requestForm => "Flow request must be a mapping with 'integration' and 'connectors'"
  | .requestProblems _ => "Invalid flow request: <validation>"
  | .requestMalformed => "Flow request is not valid YAML/JSON: <yaml>"
  | .requestUnreadable p e => s!"Cannot read flow request '{p}': {e.message p}"
  | .rules i e => s!"Rule filter step #{i}: {e.message}"
  | .settingsUnreadable p e => s!"Cannot read generator config '{p}': {e.message p}"
  | .settingsMalformed p => s!"Cannot read generator config '{p}': <yaml>"
  | .settingsForm p => s!"Generator config '{p}' must be a mapping"
  | .settingsProblems p _ => s!"Invalid generator config '{p}': <validation>"
  | .unknownStepKind k => s!"No step visitor registered for step kind '{k}'."
  | .connectorNotFound id => s!"Connector:[{orNone id}] not found."
  | .missingResource n o =>
    s!"Unable to find the required resource (override_path={orNone o}, name={n})"
  | .malformedCoordinate t =>
    s!"Malformed dependency coordinate '{t}' (expected group:artifact:version)"

/-- The problems behind an error, if it comes from reading a document against its schema. -/
def CompileError.problems : CompileError → List Schema.Problem
  | .requestProblems ps | .settingsProblems _ ps => ps
  | _ => []

/-- Failures that are not the library's own. -/
inductive Breakdown
  /-- A document has a scalar that its tag does not fit. -/
  | document (e : Yaml.Error)
  | notUtf8
  | file (e : FileError)
  | settingsProblems (problems : List Schema.Problem)
  /-- An environment variable should hold JSON and does not. -/
  | environmentJson
  /-- JSON text has an integer of too many digits. -/
  | longInteger
  /-- JSON text is nested too deep. -/
  | nesting
  /-- A setting has a name that is no text. -/
  | settingName
  | cursorIndex (index : Int)
  /-- A visitor without a visit. -/
  | abstractVisitor
  | undefinedAttribute (message : String)
  | templateForm
  | unknownFilter
  /-- A filter that is not known is reached within a choice. -/
  | unknownFilterReached
  /-- A part of a template is to be repeated for the items of a value without items. -/
  | notRepeatable
  | markup
  deriving Repr

inductive Failure
  | compile (e : CompileError)
  | breakdown (b : Breakdown)
  deriving Repr

/-- Why rules have no expression: something is wrong with them, or reading them breaks down. -/
inductive RuleFailure
  | wrong (e : RuleError)
  | breakdown (b : Breakdown)
  deriving Repr

/-- Only what is wrong with rules is reported with the position of their step. -/
def RuleFailure.at (position : Int) : RuleFailure → Failure
  | .wrong e => .compile (.rules position e)
  | .breakdown b => .breakdown b

end RouteCompiler
