import RouteCompiler.Route.Basic
import RouteCompiler.Yaml.Written

/-!
The route document as text: YAML in block style, in ASCII throughout.
-/

namespace RouteCompiler.Flow

open Yaml.Written (entry spaces)

/-- Entries of a mapping that is an item of a sequence: the first stands behind the item's mark. -/
def itemEntries (indent : Nat) : List (String × Points) → List Char
  | [] => []
  | e :: r =>
    spaces indent ++ '-' :: ' ' :: entry (indent + 2) e.1 e.2 ++
      r.flatMap fun e => spaces (indent + 2) ++ entry (indent + 2) e.1 e.2

def stepsText (steps : List Element) : List Char :=
  if steps.isEmpty then "steps: []\n".toList
  else "steps:\n".toList ++ steps.flatMap fun e => itemEntries 2 e.fields

def renderChars (f : Flow) : List Char :=
  "flows:\n- ".toList ++
    match f.shownName with
    | some n => entry 2 "name" n ++ spaces 2 ++ stepsText f.steps
    | none => stepsText f.steps

/-- The text of the route document. -/
def render (f : Flow) : String := String.ofList f.renderChars

end RouteCompiler.Flow
