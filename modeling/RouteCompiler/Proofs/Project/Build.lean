import RouteCompiler.Project.Generate
import RouteCompiler.Proofs.StepCompilation
import RouteCompiler.Proofs.Template.Serving

/-!
Builds with the shipped templates. Rendering never fails then, so behind the additional resources a
build comes down to compiling the steps: it fails as they do, and otherwise ends with the documents
of the request, what the visitors wrote, the route document and the build descriptor.
-/

namespace RouteCompiler

open Project Template

def Workspace.extend (w : Workspace) (files : List (String × ByteArray))
    (records : List LogRecord) : Workspace :=
  ⟨w.artifacts.insertMany files, w.log ++ records⟩

/-- The templates at hand are the shipped ones. -/
def Sources.ServesShipped (src : Sources) (l : Library) : Prop :=
  l.ServesShipped src.tree src.cwd

variable {src : Sources} {l : Library}

theorem runOn_render (hl : src.ServesShipped l) {name text : String} {nodes : List Node}
    (hf : (name, text) ∈ Shipped.files) (hp : Library.parse text.toUTF8 = .ok nodes)
    (hn : Library.isSafe name = false) :
    ∃ (entry : LogRecord) (l' : Library), src.ServesShipped l' ∧
      ∀ scope content, Documents.Renders false scope nodes content → ∀ w,
        (Build.render src name scope).runOn ⟨w, l⟩ =
          (.ok (String.ofList content), ⟨w.extend [] [entry], l'⟩) := by
  obtain ⟨entry, l', hl', hr⟩ := hl.render hf hp hn
  refine ⟨entry, l', hl', ?_⟩
  intro scope content h w
  simp only [Build.runOn, Build.render, ExceptT.run_mk, StateT.run, hr scope content h]
  rfl

theorem runOn_renderFile (hl : src.ServesShipped l) (path : String) {name text : String}
    {nodes : List Node} (hf : (name, text) ∈ Shipped.files)
    (hp : Library.parse text.toUTF8 = .ok nodes) (hn : Library.isSafe name = false) :
    ∃ (entry : LogRecord) (l' : Library), src.ServesShipped l' ∧
      ∀ scope content, Documents.Renders false scope nodes content → ∀ w,
        (renderFile src scope (path, name)).runOn ⟨w, l⟩ =
          (.ok (), ⟨w.extend [(path, (String.ofList content).toUTF8)] [entry], l'⟩) := by
  obtain ⟨entry, l', hl', hr⟩ := runOn_render hl hf hp hn
  refine ⟨entry, l', hl', ?_⟩
  intro scope content h w
  rw [renderFile, Build.runOn_bind_ok (hr scope content h w)]
  rfl

/-! ## The files of a request -/

namespace Project

/-- The documents made from a request alone. -/
def requestDocuments (i : Integration) : List (String × ByteArray) :=
  [ (readmePath, (String.ofList (Documents.readme i)).toUTF8),
    (applicationPath, (String.ofList (Documents.application i)).toUTF8),
    (propertiesPath, (String.ofList (Documents.properties i)).toUTF8) ]

end Project

theorem runOn_requestFiles (hl : src.ServesShipped l) :
    ∃ (records : List LogRecord) (l' : Library), src.ServesShipped l' ∧
      ∀ r w, (requestFiles.forM (renderFile src (requestScope r))).runOn ⟨w, l⟩ =
        (.ok (), ⟨w.extend (requestDocuments r.integration) records, l'⟩) := by
  have hr : ("README.md.jinja", Shipped.textOf Shipped.readmeLines) ∈ Shipped.files := by
    simp [Shipped.files]
  have ha : ("Application.java.jinja", Shipped.textOf Shipped.applicationLines) ∈
      Shipped.files := by
    simp [Shipped.files]
  have hp : ("application.properties.jinja", Shipped.textOf Shipped.propertiesLines) ∈
      Shipped.files := by
    simp [Shipped.files]
  obtain ⟨e₁, l₁, h₁, r₁⟩ :=
    runOn_renderFile hl readmePath hr Shipped.parse_readme (by decide +kernel)
  obtain ⟨e₂, l₂, h₂, r₂⟩ :=
    runOn_renderFile h₁ applicationPath ha Shipped.parse_application (by decide +kernel)
  obtain ⟨e₃, l₃, h₃, r₃⟩ :=
    runOn_renderFile h₂ propertiesPath hp Shipped.parse_properties (by decide +kernel)
  refine ⟨[e₁, e₂, e₃], l₃, h₃, ?_⟩
  intro r w
  rw [requestFiles, List.forM_eq_forM, List.forM_cons,
    Build.runOn_bind_ok (r₁ _ _ (Documents.renders_readme r) w),
    List.forM_cons, Build.runOn_bind_ok (r₂ _ _ (Documents.renders_application r) _),
    List.forM_cons, Build.runOn_bind_ok (r₃ _ _ (Documents.renders_properties r) _),
    List.forM_nil]
  simp only [Build.runOn_pure, Workspace.extend, List.append_assoc, requestDocuments]
  rfl

/-! ## The build descriptor -/

def descriptorRecord (dependencies : List Coordinate) : LogRecord :=
  ⟨.debug, loggerOf (some generatorModule),
    s!"  [POM] {dependencies.length} connector dependency(ies)"⟩

theorem runOn_buildDescriptor (hl : src.ServesShipped l) :
    ∃ (entry : LogRecord) (l' : Library), src.ServesShipped l' ∧
      ∀ i w, (buildDescriptor src i).runOn ⟨w, l⟩ =
        (.ok (String.ofList (Documents.descriptor i (Coordinate.collect i.steps).1)),
          ⟨w.extend [] ((Coordinate.collect i.steps).2 ++
            [descriptorRecord (Coordinate.collect i.steps).1, entry]), l'⟩) := by
  have hd : (descriptorTemplate, Shipped.textOf Shipped.pomLines) ∈ Shipped.files := by
    simp [Shipped.files, descriptorTemplate]
  obtain ⟨entry, l', hl', hr⟩ :=
    runOn_render hl hd Shipped.parse_descriptor (by decide +kernel)
  refine ⟨entry, l', hl', ?_⟩
  intro i w
  have hc : (Build.ofCompile (Compile.logAll (Coordinate.collect i.steps).2)).runOn ⟨w, l⟩ =
      (.ok (), ⟨w.extend [] (Coordinate.collect i.steps).2, l⟩) := rfl
  rw [buildDescriptor, Build.runOn_bind_ok hc, Build.runOn_bind_ok (Build.runOn_log _ _ _),
    hr _ _ (Documents.renders_descriptor i _)]
  simp only [Workspace.extend, List.append_assoc]
  rfl

/-! ## The whole project -/

namespace Project

/-- The documents that come behind those of the visitors. -/
def closingDocuments (i : Integration) (flow : Flow) : List (String × ByteArray) :=
  [ (flowPath, flow.render.toUTF8),
    (descriptorPath,
      (String.ofList (Documents.descriptor i (Coordinate.collect i.steps).1)).toUTF8) ]

def startRecord (i : Integration) : LogRecord :=
  ⟨.info, loggerOf (some generatorModule),
    s!"[GENERATE] Integration '{i.name}' ({i.steps.length} step(s))"⟩

def endRecord (flow : Flow) (files : Artifacts) : LogRecord :=
  ⟨.info, loggerOf (some generatorModule),
    s!"[GENERATE] {flow.size} route element(s), {files.size} file(s)"⟩

/-- What a build does behind the additional resources. -/
def buildDocuments (src : Sources) (settings : Settings) (registry : Registry VisitorFactory)
    (r : FlowRequest) : Build Artifacts := do
  requestFiles.forM (renderFile src (requestScope r))
  let flow ← Build.ofCompile (generateFlow registry settings r)
  Build.write flowPath flow.render.toUTF8
  Build.write descriptorPath (← buildDescriptor src r.integration).toUTF8
  let files := (← get).work.artifacts
  Build.log .info s!"[GENERATE] {flow.size} route element(s), {files.size} file(s)"
  return files

theorem buildProject_eq (src : Sources) (settings : Settings) (registry : Registry VisitorFactory)
    (r : FlowRequest) :
    buildProject src settings registry r = (do
      Build.log .info (startRecord r.integration).message
      settings.templates.resources.forM (copyResource src)
      buildDocuments src settings registry r) := by
  rfl

end Project

/-- Behind the additional resources a build fails as the steps do, or ends with all documents. -/
theorem runOn_buildDocuments (hl : src.ServesShipped l) :
    ∃ (records : List LogRecord) (entry : LogRecord) (l₁ l₂ : Library),
      src.ServesShipped l₁ ∧ src.ServesShipped l₂ ∧ ∀ settings r w,
        (buildDocuments src settings Registry.builtin r).runOn ⟨w, l⟩ =
          match (compileSteps ⟨settings, r⟩ (StepCursor.places r.integration.steps)).runOn
              (w.extend (requestDocuments r.integration) records) with
          | (.error e, w) => (.error e, ⟨w, l₁⟩)
          | (.ok elements, w) =>
            let flow : Flow := ⟨some r.integration.name, elements⟩
            let (dependencies, warnings) := Coordinate.collect r.integration.steps
            let w := w.extend (closingDocuments r.integration flow)
              (warnings ++ [descriptorRecord dependencies, entry])
            (.ok w.artifacts, ⟨w.extend [] [endRecord flow w.artifacts], l₂⟩) := by
  obtain ⟨records, l₁, hl₁, hr⟩ := runOn_requestFiles hl
  obtain ⟨entry, l₂, hl₂, hd⟩ := runOn_buildDescriptor hl₁
  refine ⟨records, entry, l₁, l₂, hl₁, hl₂, ?_⟩
  intro settings r w
  rw [buildDocuments, Build.runOn_bind_ok (hr r w), Build.runOn_bind, Build.runOn_ofCompile,
    runOn_generateFlow]
  dsimp only
  cases (compileSteps ⟨settings, r⟩ (StepCursor.places r.integration.steps)).runOn
      (w.extend (requestDocuments r.integration) records) with
  | mk compiled w' =>
    cases compiled with
    | error e => rfl
    | ok elements =>
      simp only [Except.map]
      rw [Build.runOn_bind_ok (Build.runOn_write _ _ _), Build.runOn_bind_ok (hd _ _),
        Build.runOn_bind_ok (Build.runOn_write _ _ _), Build.runOn_bind_ok (Build.runOn_get _),
        Build.runOn_bind_ok (Build.runOn_log _ _ _), Build.runOn_pure]
      simp only [Workspace.extend, closingDocuments, endRecord, OrderedMap.insertMany, List.foldl]

end RouteCompiler
