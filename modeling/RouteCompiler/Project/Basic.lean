import RouteCompiler.Route.Document
import RouteCompiler.Template.Library
import RouteCompiler.Template.RequestScope
import RouteCompiler.Traversal
import RouteCompiler.Visitor.Builtin

/-!
Compilers. A compiler has its settings, the visitors it knows, and its templates; what it reads of
the templates it keeps from one use to the next. A build may fail; what it logged and what it read
remains.
-/

namespace RouteCompiler

structure Compiler where
  settings : Settings
  registry : Registry VisitorFactory
  templates : Template.Library

/-- A compiler that has read no template yet. -/
def Compiler.ofSettings (s : Settings) : Compiler := ⟨s, Registry.builtin, .ofSettings s.templates⟩

/-- The files a build can read: a tree, and the directory relative paths count from. -/
structure Sources where
  tree : FileTree
  cwd : Location

structure BuildState where
  work : Workspace := {}
  templates : Template.Library

abbrev Build (α : Type) := ExceptT Failure (StateM BuildState) α

namespace Build

/-- A compilation step within a build. -/
def ofCompile {α : Type} (m : Compile α) : Build α := ExceptT.mk fun s =>
  let (r, w) := m.runOn s.work
  (r, { s with work := w })

/-- Render a template. -/
def render (src : Sources) (name : String) (scope : Template.Scope) : Build String :=
  ExceptT.mk fun s =>
    let (r, log, templates) := s.templates.render src.tree src.cwd name scope
    (r.map String.ofList, { work := { s.work with log := s.work.log ++ log }, templates })

def log (level : LogLevel) (message : String) : Build Unit :=
  ofCompile (Compile.log level generatorModule message)

def write (path : String) (content : ByteArray) : Build Unit :=
  ofCompile (Compile.write path content)

/-- Run on an empty workspace: the result, the log, and the compiler for the next use. -/
def runWith {α : Type} (m : Build α) (c : Compiler) :
    Except Failure α × List LogRecord × Compiler :=
  let (r, s) := (ExceptT.run m).run { templates := c.templates }
  (r, s.work.log, { c with templates := s.templates })

end Build
end RouteCompiler
