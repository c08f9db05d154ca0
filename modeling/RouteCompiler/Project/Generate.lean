import RouteCompiler.Project.Basic

/-!
Projects: the files a request compiles to. Additional resources come first, then the files made
from templates, then what visitors write, then the route document and the build descriptor; a later
file takes the place of an earlier one of the same path.
-/

namespace RouteCompiler

namespace Project

def readmePath : String := "README.md"
def applicationPath : String := "src/main/java/io/flowgen/example/Application.java"
def propertiesPath : String := "src/main/resources/application.properties"
def flowPath : String := "src/main/resources/flow.yml"
def descriptorPath : String := "pom.xml"

/-- Files made from the request alone, and their templates. -/
def requestFiles : List (String × String) :=
  [ (readmePath, "README.md.jinja"), (applicationPath, "Application.java.jinja"),
    (propertiesPath, "application.properties.jinja") ]

def descriptorTemplate : String := "pom.xml.jinja"

end Project

open Project

/-- The build descriptor: it names the dependencies of all steps. -/
def buildDescriptor (src : Sources) (i : Integration) : Build String := do
  let (dependencies, warnings) := Coordinate.collect i.steps
  Build.ofCompile (Compile.logAll warnings)
  Build.log .debug s!"  [POM] {dependencies.length} connector dependency(ies)"
  Build.render src descriptorTemplate (Template.descriptorScope i dependencies)

/-- Copy one additional resource. -/
def copyResource (src : Sources) (res : Resource) : Build Unit := do
  let content ← ((← get).templates.readResource src.tree src.cwd res.source : Except Failure _)
  Build.write res.destination content
  Build.log .debug s!"  [RESOURCE] {res.source} -> {res.destination}"

/-- Make one file from its template. -/
def renderFile (src : Sources) (scope : Template.Scope) (file : String × String) : Build Unit := do
  Build.write file.1 (← Build.render src file.2 scope).toUTF8

/-- All files of the project of a request. -/
def buildProject (src : Sources) (settings : Settings) (registry : Registry VisitorFactory)
    (r : FlowRequest) : Build Artifacts := do
  let i := r.integration
  Build.log .info s!"[GENERATE] Integration '{i.name}' ({i.steps.length} step(s))"
  settings.templates.resources.forM (copyResource src)
  requestFiles.forM (renderFile src (Template.requestScope r))
  let flow ← Build.ofCompile (generateFlow registry settings r)
  Build.write flowPath flow.render.toUTF8
  Build.write descriptorPath (← buildDescriptor src i).toUTF8
  let files := (← get).work.artifacts
  Build.log .info s!"[GENERATE] {flow.size} route element(s), {files.size} file(s)"
  return files

namespace Compiler

/-- Compile a request to its project. -/
def generate (c : Compiler) (src : Sources) (r : FlowRequest) :
    Except Failure Artifacts × List LogRecord × Compiler :=
  (buildProject src c.settings c.registry r).runWith c

def descriptor (c : Compiler) (src : Sources) (i : Integration) :
    Except Failure String × List LogRecord × Compiler :=
  (buildDescriptor src i).runWith c

end Compiler
end RouteCompiler
