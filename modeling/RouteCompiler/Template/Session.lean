import RouteCompiler.Template.Library

/-!
A library in use. Its files may change at any time; what it rendered before and what it keeps of
that stays with the library.
-/

namespace RouteCompiler.Template

structure Session where
  library : Library
  tree : FileTree

namespace Session

inductive Event
  /-- The files are now these, whoever wrote them. -/
  | files (tree : FileTree)
  | render (name : String) (scope : Scope)
  | resolve (name : String)
  | read (name : String)

inductive Answer
  | done
  | text (text : Except Failure (List Char))
  | path (path : Except CompileError Path)
  | content (content : Except Failure ByteArray)

/-- One event: its answer, what is logged, and the session afterwards. -/
def step (cwd : Location) (s : Session) : Event → Answer × List LogRecord × Session
  | .files tree => (.done, [], { s with tree })
  | .render name scope =>
    let (text, log, library) := s.library.render s.tree cwd name scope
    (.text text, log, { s with library })
  | .resolve name => (.path (s.library.resolve s.tree cwd name), [], s)
  | .read name => (.content (s.library.readResource s.tree cwd name), [], s)

/-- The session after events. -/
def after (cwd : Location) (s : Session) (events : List Event) : Session :=
  events.foldl (fun s e => (s.step cwd e).2.2) s

end Session
end RouteCompiler.Template
