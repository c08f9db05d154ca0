import RouteCompiler.OrderedMap
import RouteCompiler.Files.Path
import RouteCompiler.Text.Quoted

/-!
A file tree as a value: the files and directories below the root, without links or permissions. A
path is followed segment by segment from the current directory; every segment but the last must
lead to a directory that exists. An operation gives a new tree or says what stands in its way. Any
text counts as a name, also one that is too long for a file system or has a zero character.
-/

namespace RouteCompiler

inductive FileError
  | notFound
  | exists
  | notDirectory
  | isDirectory
  deriving DecidableEq, Repr, Inhabited

/-- The number and the wording of an error. -/
def FileError.text : FileError → String
  | .notFound => "[Errno 2] No such file or directory"
  | .exists => "[Errno 17] File exists"
  | .notDirectory => "[Errno 20] Not a directory"
  | .isDirectory => "[Errno 21] Is a directory"

/-- The wording of an error at a path. -/
def FileError.message (e : FileError) (p : Path) : String := s!"{e.text}: {Text.quoted p.toString}"

inductive FileNode
  | directory
  | file (content : ByteArray)

instance : DecidableEq FileNode
  | .directory, .directory => isTrue rfl
  | .file a, .file b =>
    match ByteArray.instDecidableEq a b with
    | isTrue h => isTrue (congrArg _ h)
    | isFalse h => isFalse fun e => h (FileNode.file.inj e)
  | .directory, .file _ => isFalse nofun
  | .file _, .directory => isFalse nofun

/-- The segments from the root to a file or directory. -/
abbrev Location := List String

structure FileTree where
  nodes : OrderedMap Location FileNode

namespace FileTree

def empty : FileTree := ⟨{}⟩

/-- What stands at a location; the root is always a directory. -/
def node? (t : FileTree) (l : Location) : Option FileNode :=
  if l = [] then some .directory else t.nodes.get? l

def set (t : FileTree) (l : Location) (n : FileNode) : FileTree := ⟨t.nodes.insert l n⟩

/-- Follow one segment. -/
def step (t : FileTree) (l : Location) (segment : String) : Except FileError Location :=
  match t.node? l with
  | none => .error .notFound
  | some (.file _) => .error .notDirectory
  | some .directory => .ok (if segment = ".." then l.dropLast else l ++ [segment])

/-- Where a path leads from the directory `cwd`. Nothing need be there yet. -/
def locate (t : FileTree) (cwd : Location) (p : Path) : Except FileError Location :=
  p.parts.foldlM t.step (if p.isAbsolute then [] else cwd)

def stat (t : FileTree) (cwd : Location) (p : Path) : Except FileError FileNode := do
  match t.node? (← t.locate cwd p) with
  | some n => .ok n
  | none => .error .notFound

def isFile (t : FileTree) (cwd : Location) (p : Path) : Bool :=
  match t.stat cwd p with
  | .ok (.file _) => true
  | _ => false

def isDirectory (t : FileTree) (cwd : Location) (p : Path) : Bool :=
  match t.stat cwd p with
  | .ok .directory => true
  | _ => false

def read (t : FileTree) (cwd : Location) (p : Path) : Except FileError ByteArray := do
  match ← t.stat cwd p with
  | .file b => .ok b
  | .directory => .error .isDirectory

def write (t : FileTree) (cwd : Location) (p : Path) (content : ByteArray) :
    Except FileError FileTree := do
  let l ← t.locate cwd p
  match t.node? l with
  | some .directory => .error .isDirectory
  | _ => .ok (t.set l (.file content))

/-- Make one directory where nothing is yet. -/
def makeDirectory (t : FileTree) (cwd : Location) (p : Path) : Except FileError FileTree := do
  let l ← t.locate cwd p
  match t.node? l with
  | some _ => .error .exists
  | none => .ok (t.set l .directory)

/-- Make a directory and the missing ones above it; the directory may be there already. The number
bounds the segments that are still to be made. On failure the directories made so far remain. -/
def makeDirectories (cwd : Location) : Nat → FileTree → Path → Except FileError Unit × FileTree
  | n, t, p =>
    match t.makeDirectory cwd p with
    | .ok t => (.ok (), t)
    | .error .notFound =>
      if p.parts = [] then (.error .notFound, t)
      else match n with
        | 0 => (.error .notFound, t)
        | n + 1 =>
          match makeDirectories cwd n t p.parent with
          | (.error e, t) => (.error e, t)
          | (.ok (), t) =>
            match t.makeDirectory cwd p with
            | .ok t => (.ok (), t)
            | .error e => (if t.isDirectory cwd p then .ok () else .error e, t)
    | .error e => (if t.isDirectory cwd p then .ok () else .error e, t)

/-- The files at and below a location, by the segments from it. -/
def filesBelow (t : FileTree) (l : Location) : List (Location × ByteArray) :=
  t.nodes.entries.filterMap fun e =>
    match e.2 with
    | .file b => if l.isPrefixOf e.1 then some (e.1.drop l.length, b) else none
    | .directory => none

end FileTree
end RouteCompiler
