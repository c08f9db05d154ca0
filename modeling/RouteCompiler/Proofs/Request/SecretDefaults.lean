import RouteCompiler.Proofs.Endpoint.Uri

/-!
Requests with other defaults of secret properties. A change is made to the defaults of all
definitions of actions that are marked secret; it leaves alone what the other definitions say, which
properties there are, and what kind each of them is. Requests from which all secret defaults have
been taken out are equal if they differed in nothing else.
-/

namespace RouteCompiler

/-- How the default of a property is changed; there may be none before or after. -/
abbrev DefaultChange := Option String → Option String

namespace DefaultChange

/-- All defaults are taken away. -/
def remove : DefaultChange := fun _ => none

/-- There is a default, longer by one character than what stood for it before. -/
def extend : DefaultChange := fun text => some (text.getD "" ++ "x")

end DefaultChange

variable (f g : DefaultChange)

def PropertyDefinition.mapSecretDefault (d : PropertyDefinition) : PropertyDefinition :=
  if d.secret then { d with defaultValue := f d.defaultValue } else d

def Definitions.mapSecretDefaults (ds : Definitions) : Definitions :=
  ds.mapEntries fun _ => PropertyDefinition.mapSecretDefault f

def DefinitionGroup.mapSecretDefaults (group : DefinitionGroup) : DefinitionGroup :=
  { group with definitions := Definitions.mapSecretDefaults f group.definitions }

def Action.mapSecretDefaults (a : Action) : Action :=
  { a with groups := a.groups.map (DefinitionGroup.mapSecretDefaults f) }

def Step.mapSecretDefaults (s : Step) : Step :=
  { s with action := s.action.map (Action.mapSecretDefaults f) }

def Integration.mapSecretDefaults (i : Integration) : Integration :=
  { i with steps := i.steps.map (Step.mapSecretDefaults f) }

def FlowRequest.mapSecretDefaults (r : FlowRequest) : FlowRequest :=
  { r with integration := r.integration.mapSecretDefaults f }

/-- A request without the defaults of secret properties of its actions. -/
def FlowRequest.withoutSecretDefaults (r : FlowRequest) : FlowRequest :=
  r.mapSecretDefaults .remove

/-! ## Two changes one after the other -/

theorem PropertyDefinition.mapSecretDefault_mapSecretDefault (d : PropertyDefinition) :
    (d.mapSecretDefault f).mapSecretDefault g = d.mapSecretDefault fun text => g (f text) := by
  cases hs : d.secret <;> simp [mapSecretDefault, hs]

theorem Definitions.mapSecretDefaults_mapSecretDefaults (ds : Definitions) :
    mapSecretDefaults g (mapSecretDefaults f ds) =
      mapSecretDefaults (fun text => g (f text)) ds := by
  apply OrderedMap.ext
  simp only [mapSecretDefaults, OrderedMap.mapEntries, List.map_map, Function.comp_def,
    PropertyDefinition.mapSecretDefault_mapSecretDefault]

theorem Action.mapSecretDefaults_mapSecretDefaults (a : Action) :
    (a.mapSecretDefaults f).mapSecretDefaults g = a.mapSecretDefaults fun text => g (f text) := by
  have hgroup (group : DefinitionGroup) :
      (group.mapSecretDefaults f).mapSecretDefaults g =
        group.mapSecretDefaults fun text => g (f text) := by
    simp only [DefinitionGroup.mapSecretDefaults, Definitions.mapSecretDefaults_mapSecretDefaults]
  simp only [mapSecretDefaults, List.map_map, Function.comp_def, hgroup]

theorem Step.mapSecretDefaults_mapSecretDefaults (s : Step) :
    (s.mapSecretDefaults f).mapSecretDefaults g = s.mapSecretDefaults fun text => g (f text) := by
  simp only [mapSecretDefaults, Option.map_map, Function.comp_def,
    Action.mapSecretDefaults_mapSecretDefaults]

theorem FlowRequest.mapSecretDefaults_mapSecretDefaults (r : FlowRequest) :
    (r.mapSecretDefaults f).mapSecretDefaults g = r.mapSecretDefaults fun text => g (f text) := by
  simp only [mapSecretDefaults, Integration.mapSecretDefaults, List.map_map, Function.comp_def,
    Step.mapSecretDefaults_mapSecretDefaults]

/-- Without secret defaults nothing is left of a change to them. -/
theorem FlowRequest.withoutSecretDefaults_mapSecretDefaults (r : FlowRequest) :
    (r.mapSecretDefaults f).withoutSecretDefaults = r.withoutSecretDefaults :=
  r.mapSecretDefaults_mapSecretDefaults f .remove

/-! ## What a change leaves alone -/

namespace PropertyDefinition

variable (d : PropertyDefinition)

@[simp] theorem secret_mapSecretDefault : (d.mapSecretDefault f).secret = d.secret := by
  rw [mapSecretDefault]
  split <;> rfl

@[simp] theorem required_mapSecretDefault : (d.mapSecretDefault f).required = d.required := by
  rw [mapSecretDefault]
  split <;> rfl

@[simp] theorem componentLevel_mapSecretDefault :
    (d.mapSecretDefault f).componentLevel = d.componentLevel := by
  rw [mapSecretDefault]
  split <;> rfl

@[simp] theorem isPositional_mapSecretDefault :
    (d.mapSecretDefault f).isPositional = d.isPositional := by
  rw [mapSecretDefault]
  split <;> rfl

variable {d}

theorem mapSecretDefault_of_secret (h : d.secret = true) :
    d.mapSecretDefault f = { d with defaultValue := f d.defaultValue } := by
  rw [mapSecretDefault, if_pos h]

theorem mapSecretDefault_of_not_secret (h : ¬ d.secret = true) : d.mapSecretDefault f = d := by
  rw [mapSecretDefault, if_neg h]

end PropertyDefinition

namespace Action

variable (a : Action)

@[simp] theorem scheme_mapSecretDefaults : (a.mapSecretDefaults f).scheme = a.scheme := rfl

theorem written_mapSecretDefaults : (a.mapSecretDefaults f).written =
    a.written.map fun d => (d.1, d.2.mapSecretDefault f) := by
  rw [written, written, List.map_flatMap]
  exact List.flatMap_map ..

theorem lastDefinition?_mapSecretDefaults (name : String) :
    (a.mapSecretDefaults f).lastDefinition? name =
      (a.lastDefinition? name).map (PropertyDefinition.mapSecretDefault f) := by
  simp only [lastDefinition?, OrderedMap.last?, written_mapSecretDefaults, ← List.map_reverse,
    List.find?_map, Option.map_map]
  rfl

theorem positional_mapSecretDefaults : (a.mapSecretDefaults f).positional = a.positional := by
  have hnames : (a.mapSecretDefaults f).written.map Prod.fst = a.written.map Prod.fst := by
    rw [written_mapSecretDefaults, List.map_map]
    rfl
  rw [positional, positional, hnames]
  simp only [lastDefinition?_mapSecretDefaults, Option.any_map,
    PropertyDefinition.isPositional_mapSecretDefault]

/-- What is asked of the definitions is the same where it is not asked of defaults. -/
theorem any_get?_definitions_mapSecretDefaults {p : PropertyDefinition → Bool}
    (hp : ∀ d, p (d.mapSecretDefault f) = p d) (name : String) :
    ((a.mapSecretDefaults f).definitions.get? name).any p = (a.definitions.get? name).any p := by
  simp only [get?_definitions, lastDefinition?_mapSecretDefaults, Option.any_map, hp]

@[simp] theorem isEndpointLevel_mapSecretDefaults (name : String) :
    (a.mapSecretDefaults f).definitions.isEndpointLevel name = a.definitions.isEndpointLevel name :=
  a.any_get?_definitions_mapSecretDefaults f (by simp) name

@[simp] theorem isComponentLevel_mapSecretDefaults (name : String) :
    (a.mapSecretDefaults f).definitions.isComponentLevel name =
      a.definitions.isComponentLevel name :=
  a.any_get?_definitions_mapSecretDefaults f (by simp) name

@[simp] theorem isSecret_mapSecretDefaults (name : String) :
    (a.mapSecretDefaults f).definitions.isSecret name = a.definitions.isSecret name :=
  a.any_get?_definitions_mapSecretDefaults f (by simp) name

end Action
end RouteCompiler
