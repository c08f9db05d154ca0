import RouteCompiler.Failure
import RouteCompiler.Log
import RouteCompiler.Request.Schema
import RouteCompiler.Text.Lines
import RouteCompiler.Yaml.Value.OfJson
import RouteCompiler.Yaml.Value.OfNode

/-!
Loading requests from document values, from YAML or JSON text, and from files.
-/

namespace RouteCompiler

open Yaml (Value)

namespace FlowRequest

def ofValue (v : Value) : Except CompileError FlowRequest :=
  match v with
  | .map _ =>
    match read v with
    | .ok r => .ok r
    | .bad problems => .error (.requestProblems problems)
  | _ => .error .requestForm

def ofJson (j : Json) : Except CompileError FlowRequest := ofValue (Value.ofJson j)

/-- A request from YAML text, of which JSON text is taken to be a kind. -/
def ofText (s : String) : Except Failure FlowRequest :=
  match Value.read s with
  | .ok v => (ofValue v).mapError .compile
  | .error .malformed => .error (.compile .requestMalformed)
  | .error e => .error (.breakdown (.document e))

def loadLogger : String := loggerOf (some "loader")

def loadRecord (p : Path) (r : FlowRequest) : LogRecord :=
  ⟨.debug, loadLogger,
    s!"[LOAD] {p.name}: {r.integration.steps.length} step(s), {r.connectors.size} connector(s)"⟩

/-- A request from a file, and what is logged on the way. -/
def load (t : FileTree) (cwd : Location) (p : Path) :
    Except Failure FlowRequest × List LogRecord :=
  match t.read cwd p with
  | .error e => (.error (.compile (.requestUnreadable p e)), [])
  | .ok b =>
    match Text.ofBytes? b with
    | none => (.error (.breakdown .notUtf8), [])
    | some s =>
      match ofText s with
      | .error e => (.error e, [])
      | .ok r => (.ok r, [loadRecord p r])

end FlowRequest
end RouteCompiler
