import RouteCompiler.Registry

/-!
Registries side by side, each under a name. One of them is there from the start and serves where no
registry is named. A new registry registers the factories it is made from one after the other; a
copy is made from what its source holds at that moment. A class can be registered by decorating it:
it is its own factory, and it keeps a note of the kind it was last decorated for.
-/

namespace RouteCompiler

namespace Registry

variable {φ : Type}

/-- Register factories one after the other. -/
def registerAll (r : Registry φ) : List (String × φ) → Registry φ × List LogRecord
  | [] => (r, [])
  | (kind, factory) :: rest =>
    let (r, log) := r.register kind factory
    let (r, logged) := registerAll r rest
    (r, log ++ logged)

def ofFactories (factories : OrderedMap String φ) : Registry φ × List LogRecord :=
  registerAll {} factories.entries

def copy (r : Registry φ) : Registry φ × List LogRecord := ofFactories r

/-- What can be asked of a registry. -/
inductive Query
  | kinds
  | size
  | contains (kind : String)
  | lookup (kind : String)
  | find (kind : String)

end Registry

structure Registries (φ : Type) where
  byName : OrderedMap String (Registry φ)
  /-- The kind each decorated class was last decorated for. -/
  stepKinds : OrderedMap φ String := {}

namespace Registries

variable {φ : Type}

/-- The registry that is there from the start. -/
def defaultName : String := "default"

def start (r : Registry φ) : Registries φ := ⟨.ofList [(defaultName, r)], {}⟩

inductive Operation (φ : Type)
  | create (name : String) (factories : OrderedMap String φ)
  | copy (source name : String)
  | register (name kind : String) (factory : φ)
  /-- Decorate a class, for the registry that is there from the start if none is named. -/
  | decorate (name : Option String) (kind : String) (decorated : φ)
  | ask (name : String) (query : Registry.Query)

inductive Answer (φ : Type)
  | done
  | decorated (decorated : φ)
  | kinds (kinds : List String)
  | size (size : Nat)
  | contained (contained : Bool)
  | factory (factory : Option φ)
  | found (found : Except CompileError φ)
  /-- There is no registry of the name. -/
  | noRegistry

def answer (r : Registry φ) : Registry.Query → Answer φ
  | .kinds => .kinds r.kinds
  | .size => .size (OrderedMap.size r)
  | .contains kind => .contained (OrderedMap.contains r kind)
  | .lookup kind => .factory (OrderedMap.get? r kind)
  | .find kind => .found (r.find kind)

def put (s : Registries φ) (name : String) (r : Registry φ) : Registries φ :=
  { s with byName := s.byName.insert name r }

/-- One operation: its answer, what is logged, and the registries afterwards. -/
def step [DecidableEq φ] (s : Registries φ) : Operation φ → Answer φ × List LogRecord × Registries φ
  | .create name factories =>
    let (r, log) := Registry.ofFactories factories
    (.done, log, s.put name r)
  | .copy source name =>
    match s.byName.get? source with
    | none => (.noRegistry, [], s)
    | some r =>
      let (r, log) := r.copy
      (.done, log, s.put name r)
  | .register name kind factory =>
    match s.byName.get? name with
    | none => (.noRegistry, [], s)
    | some r =>
      let (r, log) := r.register kind factory
      (.done, log, s.put name r)
  | .decorate name kind c =>
    let name := name.getD defaultName
    match s.byName.get? name with
    | none => (.noRegistry, [], s)
    | some r =>
      let (r, log) := r.register kind c
      (.decorated c, log, { s.put name r with stepKinds := s.stepKinds.insert c kind })
  | .ask name query =>
    match s.byName.get? name with
    | none => (.noRegistry, [], s)
    | some r => (answer r query, [], s)

/-- The registries after operations. -/
def after [DecidableEq φ] (s : Registries φ) (ops : List (Operation φ)) : Registries φ :=
  ops.foldl (fun s op => (s.step op).2.2) s

end Registries
end RouteCompiler
