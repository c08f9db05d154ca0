import RouteCompiler.Failure
import RouteCompiler.Log
import RouteCompiler.OrderedMap

/-!
Registries: what serves each step kind. Registering a kind again replaces what served it, with a
warning; a kind that nothing serves is an error, never skipped.
-/

namespace RouteCompiler

/-- Factories by step kind. -/
abbrev Registry (φ : Type) := OrderedMap String φ

namespace Registry

variable {φ : Type}

def replacing (kind : String) : LogRecord :=
  ⟨.warning, loggerOf (some "registry"),
    s!"[REGISTRY] Replacing visitor factory for step kind '{kind}'"⟩

/-- Register a factory, and what is logged about it. -/
def register (r : Registry φ) (kind : String) (factory : φ) : Registry φ × List LogRecord :=
  (OrderedMap.insert r kind factory, if OrderedMap.contains r kind then [replacing kind] else [])

def find (r : Registry φ) (kind : String) : Except CompileError φ :=
  match OrderedMap.get? r kind with
  | some f => .ok f
  | none => .error (.unknownStepKind kind)

/-- The kinds in the order of their characters. -/
def kinds (r : Registry φ) : List String := r.keys.mergeSort fun a b => decide (a ≤ b)

end Registry
end RouteCompiler
