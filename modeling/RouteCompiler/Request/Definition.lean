import RouteCompiler.OrderedMap

/-!
Definitions of the properties that a connector or an action can be configured with, and what a
property is by its definition: endpoint-level or component-level, and secret or not. A property
without a definition is none of these.
-/

namespace RouteCompiler

/-- The kind of properties that become positional segments of an endpoint. -/
def positionalKind : String := "path"

structure PropertyDefinition where
  kind : String := "parameter"
  required : Bool := false
  defaultValue : Option String := none
  secret : Bool := false
  componentLevel : Bool := false
  displayName : Option String := none
  description : Option String := none
  deriving DecidableEq, Repr, Inhabited

def PropertyDefinition.isPositional (d : PropertyDefinition) : Bool := d.kind == positionalKind

abbrev Definitions := OrderedMap String PropertyDefinition

/-- Configured values by property name. -/
abbrev PropertyMap := OrderedMap String String

namespace Definitions

def isEndpointLevel (ds : Definitions) (key : String) : Bool :=
  (ds.get? key).any fun d => !d.componentLevel

def isComponentLevel (ds : Definitions) (key : String) : Bool :=
  (ds.get? key).any fun d => d.componentLevel

def isSecret (ds : Definitions) (key : String) : Bool :=
  (ds.get? key).any fun d => d.secret

/-- Every key is undefined, endpoint-level or component-level, and only one of these. -/
theorem levels (ds : Definitions) (key : String) :
    (ds.isEndpointLevel key = !ds.isComponentLevel key ∧ (ds.get? key).isSome) ∨
      (ds.isEndpointLevel key = false ∧ ds.isComponentLevel key = false ∧ ds.get? key = none) := by
  unfold isEndpointLevel isComponentLevel
  cases ds.get? key <;> simp

end Definitions
end RouteCompiler
