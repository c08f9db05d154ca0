import RouteCompiler.Request.Definition

/-!
A request: the integration to compile, with its steps in order, and the connectors its steps refer
to by identifier.
-/

namespace RouteCompiler

structure Connector where
  id : String
  name : Option String := none
  description : Option String := none
  definitions : Definitions := {}
  deriving DecidableEq, Repr, Inhabited

structure DefinitionGroup where
  name : Option String := none
  description : Option String := none
  definitions : Definitions := {}
  deriving DecidableEq, Repr, Inhabited

structure Action where
  id : Option String := none
  name : Option String := none
  connectorId : Option String := none
  /-- The scheme of the endpoints of this action. -/
  scheme : String
  dependency : Option String := none
  groups : List DefinitionGroup := []
  deriving DecidableEq, Repr, Inhabited

/-- All definitions across the groups: a name defined by several groups keeps the place of its
first definition and the content of its last one. -/
def Action.definitions (a : Action) : Definitions :=
  OrderedMap.overlayAll (a.groups.map (·.definitions))

structure Connection where
  /-- Tells apart connections that share a connector. -/
  id : Option String := none
  name : Option String := none
  connectorId : Option String := none
  configured : PropertyMap := {}
  deriving DecidableEq, Repr, Inhabited

structure Step where
  id : Option String := none
  name : Option String := none
  kind : String
  connection : Option Connection := none
  action : Option Action := none
  configured : PropertyMap := {}
  deriving DecidableEq, Repr, Inhabited

structure Integration where
  id : Option String := none
  name : String
  description : Option String := none
  steps : List Step := []
  deriving DecidableEq, Repr, Inhabited

structure FlowRequest where
  integration : Integration
  connectors : OrderedMap String Connector := {}
  deriving DecidableEq, Repr, Inhabited

end RouteCompiler
