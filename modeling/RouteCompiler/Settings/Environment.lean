import RouteCompiler.Failure
import RouteCompiler.Yaml.Value.OfJson

/-!
Settings from environment variables. A variable is named for its field behind a common start, in
any case; two underscores lead into a section. A section may also be given whole, as JSON, and then
variables for single fields of it win. Lists are given as JSON.
-/

namespace RouteCompiler.Yaml.Value

mutual
/-- Write the second value over the first: mappings entry by entry, all else as a whole. -/
def overlay (base : Value) : Value → Value
  | .map es =>
    match base with
    | .map bs => .map (overlayEntries bs es)
    | _ => .map es
  | v => v

def overlayEntries (bs : List (Value × Value)) : List (Value × Value) → List (Value × Value)
  | [] => bs
  | (k, v) :: r =>
    let v := match bs.find? fun b => sameKey b.1 k with
      | some b => overlay b.2 v
      | none => v
    overlayEntries (putEntry k v bs) r
end

/-- Null, false, zero and everything empty say nothing. -/
def saysNothing : Value → Bool
  | .null => true
  | .bool b => !b
  | .int i => i == 0
  | .float x => x.isZero
  | .text s => s.isEmpty
  | .bytes b => b.isEmpty
  | .moment _ => false
  | .seq items | .set items => items.isEmpty
  | .map entries => entries.isEmpty

end RouteCompiler.Yaml.Value

namespace RouteCompiler.Settings

open Yaml (Value)

/-- Environment variables in their order. -/
abbrev Environment := List (String × String)

/-- The lower case of a letter. Of the letters beyond ASCII only the sign of the kelvin has one
that can stand in a name of settings. -/
def lowerChar (c : Char) : Char := if c = '\u212a' then 'k' else c.toLower

def lower (s : String) : String := String.ofList (s.toList.map lowerChar)

def variableStart : String := "flowgen_"
def maskSecretsName : String := "secret_masking_enabled"
def templatesName : String := "templates"
def rootName : String := "root"
def overridePathName : String := "override_path"
def resourcesName : String := "additional_resources"

/-- Names in lower case; of equal names the last counts. -/
def lowered (env : Environment) : OrderedMap String String :=
  OrderedMap.ofList (env.map fun v => (lower v.1, v.2))

def fromJson (s : String) : Except Breakdown Value :=
  match Json.read s with
  | .ok j => .ok (Value.ofJson j)
  | .error .depth => .error .nesting
  | .error _ => .error .environmentJson

/-- Split at every pair of underscores. -/
def splitUnderscores : List Char → List Char → List String
  | acc, '_' :: '_' :: r => String.ofList acc.reverse :: splitUnderscores [] r
  | acc, c :: r => splitUnderscores (c :: acc) r
  | acc, [] => [String.ofList acc.reverse]

/-- Write a value below keys, unless something else than a mapping is in the way. -/
def putDeep (v : Value) (entries : List (Value × Value)) : List String → List (Value × Value)
  | [] => entries
  | [k] => Value.putEntry (.text k) v entries
  | k :: r =>
    match Value.entry? k entries with
    | some (.map inner) => Value.putEntry (.text k) (.map (putDeep v inner r)) entries
    | some _ => entries
    | none => Value.putEntry (.text k) (.map (putDeep v [] r)) entries

/-- Add the variable of one field of the templates section, if it is one. -/
def addTemplateVariable (entries : List (Value × Value)) (var : String × String) :
    Except Breakdown (List (Value × Value)) :=
  let start := (variableStart ++ templatesName ++ "__").toList
  if start.isPrefixOf var.1.toList then do
    let keys := splitUnderscores [] (var.1.toList.drop start.length)
    let v ← if keys = [resourcesName] && !var.2.isEmpty then fromJson var.2
      else pure (.text var.2)
    return putDeep v entries keys
  else .ok entries

/-- Field names of the templates section, in any case, as the section spells them. -/
def templateFields : List String := [rootName, overridePathName, resourcesName]

def properName (v : Value) : Value :=
  match v with
  | .text k =>
    match k.string?.bind fun k => templateFields.find? fun f => f = lower k with
    | some f => .text f
    | none => v
  | v => v

/-- The templates section, if the environment says something about it. -/
def templatesFrom (vars : OrderedMap String String) : Except Breakdown (Option Value) := do
  let properNames := fun es =>
    Value.map (Value.distinctEntries (es.map fun e => (properName e.1, e.2)))
  match vars.get? (variableStart ++ templatesName) with
  | some s =>
    match ← fromJson s with
    | .map es => do
      let fields ← vars.entries.foldlM addTemplateVariable []
      return some (properNames (Value.overlayEntries es fields))
    | .null => return none
    | v => return some v
  | none => do
    let fields ← vars.entries.foldlM addTemplateVariable []
    return if fields.isEmpty then none else some (properNames fields)

/-- What the environment says, as a document. -/
def ofEnvironment (env : Environment) : Except Breakdown (List (Value × Value)) := do
  let vars := lowered env
  let mask := (vars.get? (variableStart ++ maskSecretsName)).toList.map fun (s : String) =>
    (Value.text maskSecretsName, Value.text s)
  let templates := (← templatesFrom vars).toList.map fun v => (Value.text templatesName, v)
  return mask ++ templates

end RouteCompiler.Settings
