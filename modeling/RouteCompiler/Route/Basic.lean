import RouteCompiler.Text.Points

/-!
Routes: the flow of elements that the steps of an integration are compiled to. The expression of a
filter may come from rules, whose texts have escapes.
-/

namespace RouteCompiler

inductive Element
  | endpoint (uri : String)
  | filter (expression : Points)
  | log (message loggingLevel : String)
  deriving DecidableEq, Repr, Inhabited

/-- The level of a log element that names none. -/
def defaultLoggingLevel : String := "INFO"

/-- The fields of an element, its kind first. -/
def Element.fields : Element → List (String × Points)
  | .endpoint uri => [("kind", "endpoint"), ("uri", uri)]
  | .filter expression => [("kind", "filter"), ("expression", expression)]
  | .log message loggingLevel =>
    [("kind", "log"), ("message", message), ("loggingLevel", loggingLevel)]

structure Flow where
  name : Option String := none
  steps : List Element := []
  deriving DecidableEq, Repr, Inhabited

namespace Flow

def size (f : Flow) : Nat := f.steps.length

/-- The name, if there is one and it is not empty. -/
def shownName (f : Flow) : Option String := f.name.filter fun n => !n.isEmpty

end Flow
end RouteCompiler
