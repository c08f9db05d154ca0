import RouteCompiler.Registry
import RouteCompiler.Visitor.Basic

/-!
The traversal of an integration: steps are visited in order, each by a visitor of its kind, up to
the first whose visitor does not continue. Nothing behind that step is looked up.
-/

namespace RouteCompiler

def generatorModule : String := "project_generator"

/-- Visit a step and those behind it; the elements come in the order of the steps. -/
def visitFrom (registry : Registry VisitorFactory) (x : Context) (c : StepCursor) :
    Compile (List Element) := do
  match registry.find c.step.kind with
  | .error e => Compile.fail e
  | .ok factory =>
    let v := factory x
    let element ← v.visit c
    if ← v.continues c then
      match _h : c.next? with
      | none => return element.toList
      | some d => return element.toList ++ (← visitFrom registry x d)
    else
      if c.hasNext then
        Compile.log .debug generatorModule s!"  [STOP] Traversal ended at step #{c.index}"
      return element.toList
termination_by c.steps.length - c.index
decreasing_by
  have := StepCursor.steps_of_next? ‹_›
  rw [this.1, this.2.1]
  omega

/-- The flow of a request. Files that visitors write go into the workspace. -/
def generateFlow (registry : Registry VisitorFactory) (settings : Settings) (r : FlowRequest) :
    Compile Flow := do
  let steps ← match StepCursor.first? r.integration.steps with
    | none => pure []
    | some c => visitFrom registry ⟨settings, r⟩ c
  return { name := some r.integration.name, steps }

end RouteCompiler
