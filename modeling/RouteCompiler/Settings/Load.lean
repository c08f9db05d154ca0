import RouteCompiler.Schema.Reader
import RouteCompiler.Settings.Basic
import RouteCompiler.Settings.Environment
import RouteCompiler.Text.Lines
import RouteCompiler.Yaml.Value.OfNode

/-!
Reading settings. Settings given directly win over the environment; the environment wins over a
file. Sections are merged field by field. Names of the outermost fields may have any case. Other
names of a file say nothing; those with an underscore first, which the package that reads settings
may take for parameters of its own, are no exception here.
-/

namespace RouteCompiler

open Schema
open Yaml (Value)

def strictField (name : String) (es : Entries) : Checked String :=
  required ⟨name, name⟩ (text strictText) es

def Resource.read : Value → Checked Resource :=
  record "AdditionalResource" fun es =>
    Resource.mk <$> strictField "source" es <*> strictField "destination" es

def TemplateSettings.read : Value → Checked TemplateSettings :=
  record "TemplatesProperties" fun es => TemplateSettings.mk
    <$> optional ⟨Settings.rootName, Settings.rootName⟩ (text strictText) es
    <*> optional ⟨Settings.overridePathName, Settings.overridePathName⟩ (text strictText) es
    <*> withDefault ⟨Settings.resourcesName, Settings.resourcesName⟩ [] (list Resource.read) es

namespace Settings

/-- The last key that differs from `name` at most in case. -/
def otherCase (name : String) (es : Entries) : String :=
  es.foldl (fun found e =>
    match e.1 with
    | .text k =>
      match k.string? with
      | some k => if lower k = name then k else found
      | none => found
    | _ => found) name

/-- The entry of a field whose name may have any case, under its proper name; the exact name
wins. -/
def outerEntry (name : String) (es : Entries) : Entries :=
  match Field.find ⟨name, otherCase name es⟩ es with
  | some (_, v) => [(.text name, v)]
  | none => []

def read (es : Entries) : Checked Settings :=
  Settings.mk
    <$> withDefault ⟨maskSecretsName, maskSecretsName⟩ false truth (outerEntry maskSecretsName es)
    <*> withDefault ⟨templatesName, templatesName⟩ {} TemplateSettings.read
      (outerEntry templatesName es)

/-- Settings from a document and, below it, the environment. -/
def ofEntries (env : Environment) (given : Entries) : Except Breakdown (Checked Settings) := do
  return read (Value.overlayEntries (← ofEnvironment env) given)

/-- Settings given directly. -/
def ofGiven (env : Environment) (given : Entries) : Except Failure Settings :=
  match ofEntries env given with
  | .error b => .error (.breakdown b)
  | .ok (.ok s) => .ok s
  | .ok (.bad ps) => .error (.breakdown (.settingsProblems ps))

def hasTextKeys (es : Entries) : Bool :=
  es.all fun e => match e.1 with
    | .text _ => true
    | _ => false

/-- Settings from the document of a file; `path` only names the file in errors. -/
def ofDocument (env : Environment) (path : Path) (v : Value) : Except Failure Settings := do
  match if v.saysNothing then .map [] else v with
  | .map es =>
    let outer ← (ofEnvironment env).mapError .breakdown
    let merged := Value.overlayEntries es outer
    if !hasTextKeys merged then .error (.breakdown .settingName)
    else
      match ← (ofEntries env merged).mapError .breakdown with
      | .ok s => return s
      | .bad ps => .error (.compile (.settingsProblems path ps))
  | _ => .error (.compile (.settingsForm path))

/-- Settings from a file, or from the environment alone. -/
def load (env : Environment) (t : FileTree) (cwd : Location) : Option Path →
    Except Failure Settings
  | none => ofGiven env []
  | some p =>
    match t.read cwd p with
    | .error e => .error (.compile (.settingsUnreadable p e))
    | .ok b =>
      match Text.ofBytes? b with
      | none => .error (.breakdown .notUtf8)
      | some s =>
        match Value.read s with
        | .ok v => ofDocument env p v
        | .error .malformed => .error (.compile (.settingsMalformed p))
        | .error e => .error (.breakdown (.document e))

end Settings
end RouteCompiler
