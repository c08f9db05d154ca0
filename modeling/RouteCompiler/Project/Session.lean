import RouteCompiler.Project.Generate

/-!
A compiler in use. Flows are compiled into one map of files, which remains from call to call, also
behind a call that fails; a project has files of its own.
-/

namespace RouteCompiler.Project

structure Session where
  compiler : Compiler
  files : Artifacts := {}

namespace Session

inductive Call
  | flow (request : FlowRequest)
  | project (request : FlowRequest)
  | descriptor (integration : Integration)

inductive Answer
  | flow (flow : Except Failure Flow)
  | project (files : Except Failure Artifacts)
  | descriptor (text : Except Failure String)

/-- One call: its answer, what is logged, and the session afterwards. -/
def step (src : Sources) (s : Session) : Call → Answer × List LogRecord × Session
  | .flow r =>
    let (flow, w) := (generateFlow s.compiler.registry s.compiler.settings r).runOn
      { artifacts := s.files }
    (.flow flow, w.log, { s with files := w.artifacts })
  | .project r =>
    let (files, log, compiler) := s.compiler.generate src r
    (.project files, log, { s with compiler })
  | .descriptor i =>
    let (text, log, compiler) := s.compiler.descriptor src i
    (.descriptor text, log, { s with compiler })

/-- Calls in their order: the answer to each with what is logged for it, and the session in the
end. -/
def run (src : Sources) (s : Session) : List Call → List (Answer × List LogRecord) × Session
  | [] => ([], s)
  | call :: calls =>
    let (answer, log, s) := s.step src call
    let (answers, s) := run src s calls
    ((answer, log) :: answers, s)

end Session
end RouteCompiler.Project
