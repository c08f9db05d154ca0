import RouteCompiler.Files.Tree
import RouteCompiler.Traversal

/-!
Writing a project below a directory. Files are written in the order of their paths, each after the
directories it needs; the first that cannot be written ends the writing, and the files before it
stay.
-/

namespace RouteCompiler

/-- Files in the order in which they are written. -/
def Artifacts.inOrder (files : Artifacts) : List (String × ByteArray) :=
  files.entries.mergeSort fun a b => decide (a.1 ≤ b.1)

def written (path : String) : LogRecord :=
  ⟨.debug, loggerOf (some generatorModule), s!"[GENERATED] {path}"⟩

/-- Write one file and make the directories above it. -/
def writeFile (cwd : Location) (t : FileTree) (target : Path) (content : ByteArray) :
    Except FileError Unit × FileTree :=
  match FileTree.makeDirectories cwd target.parts.length t target.parent with
  | (.error e, t) => (.error e, t)
  | (.ok (), t) =>
    match t.write cwd target content with
    | .ok t => (.ok (), t)
    | .error e => (.error e, t)

/-- Write files one after the other. -/
def writeFiles (cwd : Location) (out : Path) :
    List (String × ByteArray) → FileTree → Except FileError Unit × List LogRecord × FileTree
  | [], t => (.ok (), [], t)
  | (path, content) :: r, t =>
    match writeFile cwd t (out.join (Path.ofString path)) content with
    | (.error e, t) => (.error e, [], t)
    | (.ok (), t) =>
      let (e, log, t) := writeFiles cwd out r t
      (e, written path :: log, t)

/-- Write a project below the directory `out`. -/
def writeArtifacts (cwd : Location) (t : FileTree) (out : Path) (files : Artifacts) :
    Except FileError Unit × List LogRecord × FileTree :=
  writeFiles cwd out files.inOrder t

end RouteCompiler
