import RouteCompiler.Request.Basic
import RouteCompiler.Schema.Reader

/-!
How documents spell a request. Every field has a camel-case spelling, which is the one problems are
reported under, and a spelling with underscores.
-/

namespace RouteCompiler

open Schema
open Yaml (Value)

/-- A field that both spellings write alike. -/
def sameField (name : String) : Field := ⟨name, name⟩

def textField (f : Field) (es : Entries) : Checked (Option String) := optional f (text plainText) es

def idField (es : Entries) : Checked (Option String) := textField (sameField "id") es
def nameField (es : Entries) : Checked (Option String) := textField (sameField "name") es
def descriptionField (es : Entries) : Checked (Option String) :=
  textField (sameField "description") es
def connectorIdField (es : Entries) : Checked (Option String) :=
  textField ⟨"connectorId", "connector_id"⟩ es

def PropertyDefinition.read : Value → Checked PropertyDefinition :=
  record "ConfigurationProperty" fun es => PropertyDefinition.mk
    <$> withDefault (sameField "kind") "parameter" (text plainText) es
    <*> withDefault (sameField "required") false truth es
    <*> optional ⟨"defaultValue", "default_value"⟩ (text scalarText) es
    <*> withDefault (sameField "secret") false truth es
    <*> withDefault ⟨"componentProperty", "component_property"⟩ false truth es
    <*> textField ⟨"displayName", "display_name"⟩ es
    <*> descriptionField es

def definitionsField (es : Entries) : Checked Definitions :=
  withDefault (sameField "properties") {} (map PropertyDefinition.read) es

def configuredField (es : Entries) : Checked PropertyMap :=
  withDefault ⟨"configuredProperties", "configured_properties"⟩ {} (map (text scalarText)) es

def Connector.read : Value → Checked Connector :=
  record "Connector" fun es => Connector.mk
    <$> required (sameField "id") (text plainText) es
    <*> nameField es <*> descriptionField es <*> definitionsField es

def DefinitionGroup.read : Value → Checked DefinitionGroup :=
  record "PropertyDefinitionGroup" fun es => DefinitionGroup.mk
    <$> nameField es <*> descriptionField es <*> definitionsField es

def Action.read : Value → Checked Action :=
  record "Action" fun es => Action.mk
    <$> idField es <*> nameField es <*> connectorIdField es
    <*> required ⟨"camelConnectorPrefix", "connector_prefix"⟩ (text plainText) es
    <*> textField ⟨"camelConnectorGAV", "dependency"⟩ es
    <*> withDefault ⟨"propertyDefinitionSteps", "property_definition_groups"⟩ []
      (list DefinitionGroup.read) es

def Connection.read : Value → Checked Connection :=
  record "Connection" fun es => Connection.mk
    <$> idField es <*> nameField es <*> connectorIdField es <*> configuredField es

def Step.read : Value → Checked Step :=
  record "Step" fun es => Step.mk
    <$> idField es <*> nameField es
    <*> required ⟨"stepKind", "kind"⟩ (text plainText) es
    <*> optional (sameField "connection") Connection.read es
    <*> optional (sameField "action") Action.read es
    <*> configuredField es

def Integration.read : Value → Checked Integration :=
  record "Integration" fun es => Integration.mk
    <$> idField es
    <*> required (sameField "name") (text plainText) es
    <*> descriptionField es
    <*> withDefault (sameField "steps") [] (list Step.read) es

def FlowRequest.read : Value → Checked FlowRequest :=
  record "FlowRequest" fun es => FlowRequest.mk
    <$> required (sameField "integration") Integration.read es
    <*> withDefault (sameField "connectors") {} (map Connector.read) es

end RouteCompiler
