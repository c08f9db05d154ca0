/-!
Settings of a compilation, and the overrides a command line may give.
-/

namespace RouteCompiler

/-- A file that is copied into the project as it is. -/
structure Resource where
  source : String
  destination : String
  deriving DecidableEq, Repr, Inhabited

structure TemplateSettings where
  /-- The directory of the templates; without one, those of the library are used. -/
  root : Option String := none
  /-- A directory searched before the root; a relative path counts from the root. -/
  overridePath : Option String := none
  resources : List Resource := []
  deriving DecidableEq, Repr, Inhabited

structure Settings where
  maskSecrets : Bool := false
  templates : TemplateSettings := {}
  deriving DecidableEq, Repr, Inhabited

/-- What a command line sets; what it leaves out stays as it is. -/
structure Overrides where
  maskSecrets : Option Bool := none
  overridePath : Option String := none
  deriving DecidableEq, Repr, Inhabited

def Settings.override (s : Settings) (o : Overrides) : Settings where
  maskSecrets := o.maskSecrets.getD s.maskSecrets
  templates :=
    match o.overridePath with
    | some p => { s.templates with overridePath := some p }
    | none => s.templates

end RouteCompiler
