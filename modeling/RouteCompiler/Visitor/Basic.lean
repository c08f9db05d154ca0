import RouteCompiler.Log
import RouteCompiler.Route.Basic
import RouteCompiler.Settings.Basic
import RouteCompiler.StepCursor

/-!
Visitors turn steps into route elements. A visitor may write files of the project and log; both
remain when it fails. It also says whether the traversal goes on behind its step.
-/

namespace RouteCompiler

/-- Files of a project by path. -/
abbrev Artifacts := OrderedMap String ByteArray

/-- What a compilation has produced so far. -/
structure Workspace where
  artifacts : Artifacts := {}
  log : List LogRecord := []
  deriving Inhabited

/-- A compilation step: it may fail, and what it did to the workspace stays. -/
abbrev Compile (α : Type) := ExceptT Failure (StateM Workspace) α

namespace Compile

def log (level : LogLevel) (module message : String) : Compile Unit :=
  modify fun w => { w with log := w.log ++ [⟨level, loggerOf (some module), message⟩] }

def logAll (records : List LogRecord) : Compile Unit :=
  modify fun w => { w with log := w.log ++ records }

def write (path : String) (content : ByteArray) : Compile Unit :=
  modify fun w => { w with artifacts := w.artifacts.insert path content }

def fail {α : Type} (e : CompileError) : Compile α := throw (.compile e)

/-- Run on a workspace. -/
def runOn {α : Type} (m : Compile α) (w : Workspace) : Except Failure α × Workspace :=
  (ExceptT.run m).run w

end Compile

/-- What visitors know of the compilation they serve. -/
structure Context where
  settings : Settings
  request : FlowRequest

structure Visitor where
  visit : StepCursor → Compile (Option Element)
  /-- Whether the traversal goes on, asked after the visit. -/
  continues : StepCursor → Compile Bool

/-- How visitors of a kind are made, anew for every step. -/
abbrev VisitorFactory := Context → Visitor

/-- A visitor that lets the traversal run to its end. -/
def Visitor.ofVisit (visit : StepCursor → Compile (Option Element)) : Visitor where
  visit := visit
  continues c := return c.hasNext

end RouteCompiler
