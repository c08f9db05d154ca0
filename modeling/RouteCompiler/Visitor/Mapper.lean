import RouteCompiler.Visitor.Basic

/-!
Mapper steps. The mapping document becomes a file of the project, named for the position of the
step, and the step an endpoint that refers to it.
-/

namespace RouteCompiler.Mapper

def module : String := "mapper"

/-- The property that holds the mapping document. -/
def mappingKey : String := "atlasmapping"
def scheme : String := "atlas"
def directory : String := "src/main/resources"

def fileName (index : Nat) : String := s!"mapping-step-{index}.json"

def filePath (index : Nat) : String := directory ++ "/" ++ fileName index

def element (index : Nat) : Element := .endpoint (scheme ++ ":" ++ fileName index)

/-- The mapping of a step, if it is not empty. -/
def mapping? (s : Step) : Option String :=
  (s.configured.get? mappingKey).filter fun m => !m.isEmpty

def visitor : VisitorFactory := fun _ => .ofVisit fun c => do
  match mapping? c.step with
  | none =>
    Compile.log .debug module s!"  [SKIP] Mapper step #{c.index} has no mapping"
    return none
  | some m =>
    let name := fileName c.index
    Compile.write (filePath c.index) m.toUTF8
    Compile.log .debug module s!"  [MAPPING] #{c.index} -> {name}"
    return some (element c.index)

end RouteCompiler.Mapper
