import RouteCompiler.CommandLine.Arguments
import RouteCompiler.Console.Table
import RouteCompiler.Project.Generate
import RouteCompiler.Project.Output
import RouteCompiler.Request.Load
import RouteCompiler.Settings.Load

/-!
The commands. `validate` checks a request, `inspect` shows the steps and what they compile to,
`generate` writes the project, and `pom` prints its build descriptor. A compile error is reported
and ends the program with code one; no command has written anything by then.
-/

namespace RouteCompiler.CommandLine

/-- How a run ends. -/
inductive Ending
  /-- The arguments are not used as they should be. -/
  | usage
  | finished (code : Nat) (output : String) (log : List LogRecord)
  | broken (b : Breakdown)

/-- What a run is given besides its arguments. -/
structure Surroundings where
  today : String
  env : Settings.Environment
  sources : Sources

namespace Surroundings

def stamp (x : Surroundings) : String := "[" ++ x.today ++ "] "

/-- End with a message that may have markup. -/
def say (x : Surroundings) (code : Nat) (markup : String) (log : List LogRecord) : Ending :=
  match Console.message (x.stamp ++ markup) with
  | .ok s => .finished code s log
  | .error b => .broken b

/-- End with a failure; `what` says which work failed. -/
def fail (x : Surroundings) (what : String) (log : List LogRecord) : Failure → Ending
  | .compile e => x.say 1 (what ++ ": " ++ Console.escape e.message) log
  | .breakdown b => .broken b

/-- The compiler for the choices on the command line. -/
def compiler (x : Surroundings) (c : Choices) : Except Failure Compiler := do
  let s ← Settings.load x.env x.sources.tree x.sources.cwd (c.config.map Path.ofString)
  return .ofSettings (s.override ⟨c.maskSecrets, c.templatesOverride⟩)

/-- A settings file that is named has to be there. -/
def hasConfig (x : Surroundings) (c : Choices) : Bool :=
  match c.config with
  | none => true
  | some p => x.sources.tree.isFile x.sources.cwd (Path.ofString p)

def load (x : Surroundings) (flow : String) : Except Failure FlowRequest × List LogRecord :=
  FlowRequest.load x.sources.tree x.sources.cwd (Path.ofString flow)

/-- Load a request and do the work of a command on it. -/
def withRequest {α : Type} (x : Surroundings) (what flow : String) (c : Choices)
    (work : FlowRequest → Compiler → Except Failure α × List LogRecord)
    (finish : FlowRequest → α → List LogRecord → Ending × FileTree) : Ending × FileTree :=
  if !x.hasConfig c then (.usage, x.sources.tree)
  else
    let (request, log) := x.load flow
    match do return (← request, ← x.compiler c) with
    | .error e => (x.fail what log e, x.sources.tree)
    | .ok (r, compiler) =>
      match work r compiler with
      | (.error e, more) => (x.fail what (log ++ more) e, x.sources.tree)
      | (.ok a, more) => finish r a (log ++ more)

def inspection (r : FlowRequest) (f : Flow) : Except Breakdown String := do
  let table ← Console.Table.render
    { title := r.integration.name
      columns := [⟨"#", .right⟩, ⟨"Kind", .left⟩, ⟨"Name", .left⟩]
      rows := r.integration.steps.zipIdx.map fun (s, i) =>
        [toString (i + 1), s.kind, s.name.getD ""] }
  let elements := f.steps.map fun e =>
    (Json.obj (e.fields.map fun m => (m.1, .str m.2))).shown ++ "\n"
  return table ++ String.join elements

/-- Where a project is written. -/
def outPath (x : Surroundings) (out : String) : Path :=
  ((Path.mk "/" x.sources.cwd).join (Path.ofString out)).collapse

/-- Run one command; the second result is the file tree afterwards. -/
def command (x : Surroundings) : Command → Ending × FileTree
  | .help => (.finished 0 "" [], x.sources.tree)
  | .validate flow =>
    let (request, log) := x.load flow
    (match request with
      | .error e => x.fail "Validation failed with error(s)" log e
      | .ok r =>
        let name := Console.escape r.integration.name
        x.say 0 s!"Flow '{name}' is valid ({r.integration.steps.length} step(s))." log,
     x.sources.tree)
  | .inspect flow choices =>
    x.withRequest "Inspect failed with error(s)" flow choices
      (fun r c =>
        let (f, w) := (generateFlow c.registry c.settings r).runOn {}
        (f, w.log))
      fun r f log =>
        (match inspection r f with
          | .ok s => .finished 0 s log
          | .error b => .broken b,
         x.sources.tree)
  | .generate flow out choices =>
    x.withRequest "Generate failed with error(s)" flow choices
      (fun r c =>
        let (files, log, _) := c.generate x.sources r
        (files, log))
      fun _ files log =>
        let out := x.outPath out
        match writeArtifacts x.sources.cwd x.sources.tree out files with
        | (.error e, _, t) => (.broken (.file e), t)
        | (.ok (), more, t) =>
          (x.say 0 s!"{files.size} file(s) emitted to: {out}" (log ++ more), t)
  | .descriptor flow choices =>
    x.withRequest "Build descriptor generation failed" flow choices
      (fun r c =>
        let (text, log, _) := c.descriptor x.sources r.integration
        (text, log))
      fun _ text log => (.finished 0 text log, x.sources.tree)

end Surroundings

/-- Run the program. What it logs at the level it was asked for goes to its second output. -/
def run (x : Surroundings) (args : List String) : Ending × FileTree × LogLevel :=
  match invocation? false false args with
  | none => (.usage, x.sources.tree, .info)
  | some i =>
    let (e, t) := x.command i.command
    (e, t, levelFor i.verbose i.quiet)

end RouteCompiler.CommandLine
