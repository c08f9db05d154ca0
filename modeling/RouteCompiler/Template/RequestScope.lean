import RouteCompiler.Coordinate
import RouteCompiler.Template.Render

/-!
What templates see of a request: its parts as records, with the names under which templates ask
for them.
-/

namespace RouteCompiler.Template

/-- Where the names of the records belong. -/
def requestRecords : String := "flowgen.model."

def derivingRecord (kind : String) (fields derived : Scope) : Value :=
  .record requestRecords kind none fields derived

def requestRecord (kind : String) (fields : Scope) : Value := derivingRecord kind fields []

def propertyMapValue (m : PropertyMap) : Value := .map (m.entries.map fun e => (e.1, .text e.2))

def definitionValue (d : PropertyDefinition) : Value :=
  derivingRecord "ConfigurationProperty"
    [ ("kind", .text d.kind), ("required", .truth d.required),
      ("default_value", .ofOption d.defaultValue), ("secret", .truth d.secret),
      ("component_property", .truth d.componentLevel), ("display_name", .ofOption d.displayName),
      ("description", .ofOption d.description) ]
    [("is_positional", .truth d.isPositional)]

def definitionsValue (ds : Definitions) : Value :=
  .map (ds.entries.map fun e => (e.1, definitionValue e.2))

def connectorValue (c : Connector) : Value :=
  requestRecord "Connector"
    [ ("id", .text c.id), ("name", .ofOption c.name), ("description", .ofOption c.description),
      ("properties", definitionsValue c.definitions) ]

def groupValue (g : DefinitionGroup) : Value :=
  requestRecord "PropertyDefinitionGroup"
    [ ("name", .ofOption g.name), ("description", .ofOption g.description),
      ("properties", definitionsValue g.definitions) ]

def actionValue (a : Action) : Value :=
  derivingRecord "Action"
    [ ("id", .ofOption a.id), ("name", .ofOption a.name), ("connector_id", .ofOption a.connectorId),
      ("connector_prefix", .text a.scheme), ("dependency", .ofOption a.dependency),
      ("property_definition_groups", .list (a.groups.map groupValue)) ]
    [("properties", definitionsValue a.definitions)]

def connectionValue (c : Connection) : Value :=
  requestRecord "Connection"
    [ ("id", .ofOption c.id), ("name", .ofOption c.name),
      ("connector_id", .ofOption c.connectorId),
      ("configured_properties", propertyMapValue c.configured) ]

def stepValue (s : Step) : Value :=
  requestRecord "Step"
    [ ("id", .ofOption s.id), ("name", .ofOption s.name), ("kind", .text s.kind),
      ("connection", (s.connection.map connectionValue).getD .null),
      ("action", (s.action.map actionValue).getD .null),
      ("configured_properties", propertyMapValue s.configured) ]

def stepsValue (steps : List Step) : Value := .list (steps.map stepValue)

def integrationValue (i : Integration) : Value :=
  requestRecord "Integration"
    [ ("id", .ofOption i.id), ("name", .text i.name), ("description", .ofOption i.description),
      ("steps", stepsValue i.steps) ]

def connectorsValue (cs : OrderedMap String Connector) : Value :=
  .map (cs.entries.map fun e => (e.1, connectorValue e.2))

def requestValue (r : FlowRequest) : Value :=
  requestRecord "FlowRequest"
    [ ("integration", integrationValue r.integration),
      ("connectors", connectorsValue r.connectors) ]

/-- What the templates of the request's own files see. -/
def requestScope (r : FlowRequest) : Scope :=
  [ ("request", requestValue r), ("integration", integrationValue r.integration),
    ("steps", stepsValue r.integration.steps), ("connectors", connectorsValue r.connectors) ]

def coordinateValue (c : Coordinate) : Value :=
  .record "flowgen.generator.dependencies." "DependencyCoordinate" (some c.toString)
    [ ("group_id", .text c.group), ("artifact_id", .text c.artifact), ("version", .text c.version) ]
    []

/-- What the template of the build descriptor sees. -/
def descriptorScope (i : Integration) (dependencies : List Coordinate) : Scope :=
  [ ("id", .text (i.id.getD "")), ("name", .text i.name), ("description", .ofOption i.description),
    ("connectors", .list (dependencies.map coordinateValue)) ]

end RouteCompiler.Template
