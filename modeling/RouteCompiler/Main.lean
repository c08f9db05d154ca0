import RouteCompiler.CommandLine.Run
import Std.Time.DateTime

/-!
The program. It brings the files that the arguments and the settings name into a file tree, runs the
command on it, and writes what the command has written.
-/

namespace RouteCompiler.Main

/-- The name of a variable in front of the first sign of equality, and its value behind it. -/
def splitVariable? (s : String) : Option (String × String) :=
  match s.toList.span (· ≠ '=') with
  | (_, []) => none
  | (name, _ :: value) => some (String.ofList name, String.ofList value)

/-- All variables where the system shows them in a file, each ended by a zero byte, since those of
settings may be named in any case. -/
def shownEnvironment : IO (Option Settings.Environment) := do
  try
    let shown := String.fromUTF8? (← IO.FS.readBinFile "/proc/self/environ")
    return shown.map fun s => (s.splitOn "\x00").filterMap splitVariable?
  catch _ => return none

/-- The usual names of the variables that settings come from. -/
def variableNames : List String :=
  [ "FLOWGEN_SECRET_MASKING_ENABLED", "FLOWGEN_TEMPLATES", "FLOWGEN_TEMPLATES__ROOT",
    "FLOWGEN_TEMPLATES__OVERRIDE_PATH", "FLOWGEN_TEMPLATES__ADDITIONAL_RESOURCES" ]

def environment : IO Settings.Environment := do
  match ← shownEnvironment with
  | some env => return env
  | none => variableNames.filterMapM fun v => return (← IO.getEnv v).map (v, ·)

def twoDigits (n : Nat) : String := if n < 10 then s!"0{n}" else s!"{n}"

def today : IO String := do
  let now ← Std.Time.Timestamp.now
  let d := Std.Time.PlainDate.ofEpochDay now.toDaysSinceUnixEpoch
  let month := twoDigits d.month.toNat
  let day := twoDigits d.day.toNat
  return s!"{d.year.toInt}-{month}-{day}"

def absolute (l : Location) : String := (Path.mk "/" l).toString

/-- Add what stands at a location: a file, or else a directory, unless nothing is there. -/
def addNode (t : FileTree) (l : Location) : IO FileTree := do
  try return t.set l (.file (← IO.FS.readBinFile (absolute l)))
  catch
    | .noFileOrDirectory .. => return t
    | _ => return t.set l .directory

/-- Add what stands at a path, and the directories above it. -/
def addPath (cwd : Location) (t : FileTree) (p : Path) : IO FileTree :=
  let l := ((Path.mk "/" cwd).join p).collapse.parts
  (List.range (l.length + 1)).foldlM (fun t n => addNode t (l.take n)) t

/-- The files that the arguments of a command name. -/
def namedPaths : CommandLine.Command → List Path
  | .validate flow => [Path.ofString flow]
  | .inspect flow c | .generate flow _ c | .descriptor flow c =>
    (flow :: c.config.toList).map Path.ofString
  | .help => []

/-- The files that settings name: templates and resources, in each directory searched. -/
def pathsOf (s : Settings) : List Path :=
  let names := Template.Shipped.files.map Prod.fst ++ s.templates.resources.map (·.source)
  (Template.Library.ofSettings s.templates).searchPath.flatMap fun d =>
    names.map fun n => d.join (Path.ofString n)

def furtherPaths (x : CommandLine.Surroundings) : CommandLine.Command → List Path
  | .inspect _ c | .generate _ _ c | .descriptor _ c =>
    match x.compiler c with
    | .ok k => (pathsOf k.settings).filter fun p => p.parent ≠ Template.Shipped.directory
    | .error _ => []
  | .validate _ | .help => []

/-- Write the nodes of the second tree that the first does not have. -/
def writeNew (before after : FileTree) : IO Unit :=
  after.nodes.entries.forM fun (l, n) => do
    if before.node? l ≠ some n then
      match n with
      | .directory => IO.FS.createDirAll (absolute l)
      | .file b => IO.FS.writeBinFile (absolute l) b

def usage : String :=
  "usage: [-v | -q] (validate | inspect | generate | pom) FLOW [options]"

end RouteCompiler.Main

open RouteCompiler Main in
def main (args : List String) : IO UInt32 := do
  let cwd := (Path.ofString (← IO.currentDir).toString).parts
  let command := (CommandLine.invocation? false false args).map (·.command)
  let start ← addPath cwd (Template.Shipped.install FileTree.empty) (Path.ofString "")
  let tree ← ((command.map namedPaths).getD []).foldlM (addPath cwd) start
  let x : CommandLine.Surroundings := ⟨← today, ← environment, ⟨tree, cwd⟩⟩
  let tree ← ((command.map (furtherPaths x)).getD []).foldlM (addPath cwd) tree
  let (ending, after, level) := CommandLine.run { x with sources := ⟨tree, cwd⟩ } args
  writeNew tree after
  match ending with
  | .usage =>
    IO.eprintln usage
    return 2
  | .broken b =>
    IO.eprintln (repr b)
    return 1
  | .finished code output log =>
    IO.eprint (shownLog level log)
    IO.print output
    return code.toUInt32
