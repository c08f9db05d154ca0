import RouteCompiler.Files.Tree
import RouteCompiler.Log
import RouteCompiler.Settings.Basic
import RouteCompiler.Template.Reader
import RouteCompiler.Template.Render
import RouteCompiler.Template.Shipped
import RouteCompiler.Text.Lines

/-!
The library of templates and resources. Both are looked up in the override directory first, if
there is one, and then in the root. A resource is read anew every time; a template is read once and
kept as long as the file it was read from stays what it was, even if a file that would be found
before it appears meanwhile.
-/

namespace RouteCompiler.Template

structure LoadedTemplate where
  path : Path
  content : ByteArray
  nodes : List Node

structure Library where
  root : Path
  overridePath : Option String := none
  /-- Templates that were read, by name. -/
  loaded : OrderedMap String LoadedTemplate := {}

namespace Library

def ofSettings (s : TemplateSettings) : Library where
  root := match s.root.filter fun r => !r.isEmpty with
    | some r => Path.ofString r
    | none => Shipped.directory
  overridePath := s.overridePath

/-- The directories that are searched, in their order. -/
def searchPath (l : Library) : List Path :=
  match l.overridePath.filter fun p => !p.isEmpty with
  | some p => [l.root.join (Path.ofString p), l.root]
  | none => [l.root]

/-- Nothing of that name is in the library. -/
def absent (l : Library) (name : String) : CompileError := .missingResource name l.overridePath

/-! ## Resources -/

/-- The file of a resource. A name that is an absolute path stands for itself. -/
def resolve (l : Library) (t : FileTree) (cwd : Location) (name : String) :
    Except CompileError Path :=
  match (l.searchPath.map fun d => d.join (Path.ofString name)).find? (t.isFile cwd) with
  | some p => .ok p
  | none => .error (l.absent name)

def readResource (l : Library) (t : FileTree) (cwd : Location) (name : String) :
    Except Failure ByteArray := do
  let p ← (l.resolve t cwd name).mapError .compile
  (t.read cwd p).mapError fun e => .breakdown (.file e)

/-! ## Templates -/

/-- The segments of a template's name, which must not lead upwards. -/
def segments? (name : String) : Option (List String) :=
  let parts := Path.segments name.toList
  if parts.contains ".." then none else some parts

/-- The file of a template. Names are always seen from the directories of the library. -/
def find? (l : Library) (t : FileTree) (cwd : Location) (name : String) : Option Path := do
  let parts ← segments? name
  (l.searchPath.map fun d => d.join ⟨"", parts⟩).find? (t.isFile cwd)

/-- Read a template from the content of its file. -/
def parse (content : ByteArray) : Except Breakdown (List Node) :=
  match Text.ofBytes? content with
  | none => .error .notUtf8
  | some s =>
    match read? s.toList with
    | none => .error .templateForm
    | some ns =>
      if (filtersOf false ns).all knownFilters.contains then .ok ns else .error .unknownFilter

/-- A template that was read before and whose file has not changed. -/
def current? (l : Library) (t : FileTree) (cwd : Location) (name : String) :
    Option LoadedTemplate :=
  (l.loaded.get? name).filter fun x =>
    match t.stat cwd x.path with
    | .ok n => decide (n = .file x.content)
    | .error _ => false

/-- Read a template, unless it is there already. -/
def load (l : Library) (t : FileTree) (cwd : Location) (name : String) :
    Except Failure (LoadedTemplate × Library) :=
  match l.current? t cwd name with
  | some x => .ok (x, l)
  | none => do
    match l.find? t cwd name with
    | none => throw (.compile (l.absent name))
    | some p =>
      let content ← (t.read cwd p).mapError fun e => .breakdown (.file e)
      let nodes ← (parse content).mapError .breakdown
      let x : LoadedTemplate := ⟨p, content, nodes⟩
      return (x, { l with loaded := l.loaded.insert name x })

/-- Endings of the names of templates that make documents with tags. -/
def taggedEndings : List String := [".html", ".htm", ".xml"]

/-- Whether a template writes only text that is safe between tags. -/
def isSafe (name : String) : Bool :=
  taggedEndings.any fun e => e.toList.isSuffixOf (name.toList.map Char.toLower)

def rendering (name : String) (p : Path) : LogRecord :=
  ⟨.debug, loggerOf (some "templates"), s!"  [RENDER] {name} ({p.collapse})"⟩

/-- The text of a template for a scope, what is logged about it, and the library afterwards. -/
def render (l : Library) (t : FileTree) (cwd : Location) (name : String) (scope : Scope) :
    Except Failure (List Char) × List LogRecord × Library :=
  match l.load t cwd name with
  | .error e => (.error e, [], l)
  | .ok (x, l) =>
    ((renderAll (isSafe name) scope x.nodes).mapError .breakdown, [rendering name x.path], l)

end Library
end RouteCompiler.Template
