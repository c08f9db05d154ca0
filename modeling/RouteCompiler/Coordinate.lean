import RouteCompiler.Failure
import RouteCompiler.Log
import RouteCompiler.Request.Basic

/-!
Dependency coordinates, and the dependencies that the actions of an integration ask for: each once,
in the order of their first mention, whatever becomes of the steps themselves.
-/

namespace RouteCompiler

structure Coordinate where
  group : String
  artifact : String
  version : String
  deriving DecidableEq, Repr, Inhabited

namespace Coordinate

/-- Three texts with colons between them. -/
def parse (text : String) : Except CompileError Coordinate :=
  match text.toList.splitOn ':' with
  | [g, a, v] => .ok ⟨String.ofList g, String.ofList a, String.ofList v⟩
  | _ => .error (.malformedCoordinate text)

def toString (c : Coordinate) : String := c.group ++ ":" ++ c.artifact ++ ":" ++ c.version

instance : ToString Coordinate := ⟨toString⟩

def dependencyLogger : String := loggerOf (some "dependencies")

def warning (e : CompileError) : LogRecord :=
  ⟨.warning, dependencyLogger, s!"  [WARN] {e.message}, skipping."⟩

/-- The dependency that a step asks for, if its text is not empty. -/
def textOf (s : Step) : Option String :=
  (s.action.bind (·.dependency)).filter fun t => !t.isEmpty

/-- Add the dependency of one step; a malformed one is left out with a warning. -/
def collectStep (acc : List Coordinate × List LogRecord) (s : Step) :
    List Coordinate × List LogRecord :=
  match textOf s with
  | none => acc
  | some t =>
    match parse t with
    | .ok c => if acc.1.contains c then acc else (acc.1 ++ [c], acc.2)
    | .error e => (acc.1, acc.2 ++ [warning e])

/-- The dependencies of all steps, and the warnings on the way. -/
def collect (steps : List Step) : List Coordinate × List LogRecord :=
  steps.foldl collectStep ([], [])

end Coordinate
end RouteCompiler
