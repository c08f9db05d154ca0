import RouteCompiler.Proofs.Project.Build

/-!
What a build that succeeds has written, in the order of writing: the additional resources, the
documents of the request, the mappings of its mapper steps, the route document and the build
descriptor. Templates may be any; each text is the one its template gives on its own.
-/

namespace RouteCompiler

open List (Forall₂)
open Project Template

/-! ## Mappings -/

/-- The step is a mapper step with this mapping, which is not empty. -/
def Step.Maps (s : Step) (mapping : String) : Prop :=
  s.kind = "mapper" ∧ s.configured.get? Mapper.mappingKey = some mapping ∧ mapping ≠ ""

/-- The mapping of a mapper step, if there is one. -/
def Step.mapping? (s : Step) : Option String :=
  if s.kind = "mapper" then Mapper.mapping? s else none

theorem Step.mapping?_eq_some_iff (s : Step) (m : String) : s.mapping? = some m ↔ s.Maps m := by
  unfold mapping? Maps Mapper.mapping?
  by_cases h : s.kind = "mapper" <;> simp [h, Option.filter_eq_some_iff]

namespace Project

/-- The file of the mapping at a place, if there is a mapping. -/
def mappingFile? (c : StepCursor) : Option (String × ByteArray) :=
  c.step.mapping?.map fun m => (Mapper.filePath c.index, m.toUTF8)

/-- The files of all mappings, by the positions of their steps. -/
def mappingFiles (steps : List Step) : List (String × ByteArray) :=
  (StepCursor.places steps).filterMap mappingFile?

end Project

namespace Compiled
variable {x : Context} {i : Nat} {s : Step} {p : Compiled}

theorem files_of_endpointStep (h : endpointStep x i s = .ok p) : p.files = [] := by
  rw [endpointStep] at h
  split at h
  next a k _ _ =>
    cases hu : Endpoint.ofStep x s k a with
    | error e =>
      rw [hu] at h
      cases h
    | ok u =>
      rw [hu] at h
      exact Except.ok.inj h ▸ rfl
  next => exact Except.ok.inj h ▸ rfl

theorem files_filterStep (i : Nat) (s : Step) : (filterStep i s).files = [] := by
  rw [filterStep]
  split <;> rfl

theorem files_of_ruleStep (h : ruleStep i s = .ok p) : p.files = [] := by
  rw [ruleStep] at h
  split at h
  · cases h
  · exact Except.ok.inj h ▸ rfl
  · exact Except.ok.inj h ▸ rfl

theorem files_mapperStep (i : Nat) (s : Step) : (mapperStep i s).files =
    ((Mapper.mapping? s).map fun m => (Mapper.filePath i, m.toUTF8)).toList := by
  rw [mapperStep]
  cases Mapper.mapping? s <;> rfl

/-- Among the built-in visitors only that of mapper steps writes files. -/
theorem files_eq {c : StepCursor} (h : ofStep x c.index c.step = .ok p) :
    p.files = (mappingFile? c).toList := by
  unfold mappingFile? Step.mapping?
  rw [ofStep] at h
  by_cases h₁ : c.step.kind = "endpoint"
  · rw [if_pos h₁] at h
    simp [files_of_endpointStep h, h₁]
  by_cases h₂ : c.step.kind = "filter"
  · rw [if_neg h₁, if_pos h₂] at h
    simp [← Except.ok.inj h, files_filterStep, h₂]
  by_cases h₃ : c.step.kind = "rule-filter"
  · rw [if_neg h₁, if_neg h₂, if_pos h₃] at h
    simp [files_of_ruleStep h, h₃]
  by_cases h₄ : c.step.kind = "log"
  · rw [if_neg h₁, if_neg h₂, if_neg h₃, if_pos h₄] at h
    simp [← Except.ok.inj h, h₄]
  by_cases h₅ : c.step.kind = "mapper"
  · rw [if_neg h₁, if_neg h₂, if_neg h₃, if_neg h₄, if_pos h₅] at h
    rw [← Except.ok.inj h, files_mapperStep, if_pos h₅]
  · rw [if_neg h₁, if_neg h₂, if_neg h₃, if_neg h₄, if_neg h₅] at h
    cases h

end Compiled

theorem artifacts_foldl_addTo {x : Context} {cs : List StepCursor} {ps : List Compiled}
    (h : Forall₂ (fun c p => Compiled.ofStep x c.index c.step = .ok p) cs ps) (w : Workspace) :
    (ps.foldl (fun w p => p.addTo w) w).artifacts =
      w.artifacts.insertMany (cs.filterMap mappingFile?) := by
  induction h generalizing w with
  | nil => rfl
  | @cons c p cs ps hp h ih =>
    rw [List.foldl_cons, ih, Compiled.addTo, Compiled.files_eq hp, ← OrderedMap.insertMany_append]
    cases hm : mappingFile? c <;> simp [hm]

/-! ## Texts of templates -/

/-- Every template has the same text in both libraries. -/
def Sources.SameTexts (src : Sources) (l l' : Library) : Prop :=
  ∀ name scope, (l'.render src.tree src.cwd name scope).1 = (l.render src.tree src.cwd name scope).1

/-- The text that a template of the library has for a scope. -/
def Sources.HasText (src : Sources) (l : Library) (name : String) (scope : Scope)
    (text : String) : Prop :=
  ∃ cs, (l.render src.tree src.cwd name scope).1 = .ok cs ∧ text = String.ofList cs

variable {src : Sources} {l : Library} {s s' : BuildState}

theorem Sources.SameTexts.hasText {l' : Library} (h : src.SameTexts l l') {name text : String}
    {scope : Scope} (ht : src.HasText l' name scope text) : src.HasText l name scope text := by
  obtain ⟨cs, hcs, rfl⟩ := ht
  exact ⟨cs, h name scope ▸ hcs, rfl⟩

theorem hasText_of_runOn_render {name text : String} {scope : Scope}
    (h : (Build.render src name scope).runOn s = (.ok text, s')) :
    src.HasText s.templates name scope text ∧ s'.work.artifacts = s.work.artifacts ∧
      src.SameTexts s.templates s'.templates := by
  simp only [Build.runOn, Build.render, ExceptT.run_mk, StateT.run] at h
  have hsame : src.SameTexts s.templates (s.templates.render src.tree src.cwd name scope).2.2 :=
    fun _ _ => Library.fst_render_render _ _ _
  unfold Sources.HasText
  cases hr : s.templates.render src.tree src.cwd name scope with
  | mk r p =>
    rw [hr] at h hsame
    cases r with
    | error e => cases h
    | ok cs =>
      cases h
      exact ⟨⟨cs, rfl, rfl⟩, rfl, hsame⟩

/-! ## Writing files one after the other -/

/-- The build, if it succeeds, writes one file, as `Written` says, and keeps the library as `Kept`
says. -/
def Build.Writes (Kept : Library → Prop) (m : Build Unit) (Written : String × ByteArray → Prop) :
    Prop :=
  ∀ s s', Kept s.templates → m.runOn s = (.ok (), s') →
    ∃ e, Written e ∧ s'.work.artifacts = s.work.artifacts.insert e.1 e.2 ∧ Kept s'.templates

theorem Build.Writes.forM {α : Type} {Kept : Library → Prop} {f : α → Build Unit}
    {Written : α → String × ByteArray → Prop} (h : ∀ a, Build.Writes Kept (f a) (Written a))
    (as : List α) (hs : Kept s.templates) (hr : (as.forM f).runOn s = (.ok (), s')) :
    ∃ es, Forall₂ Written as es ∧ s'.work.artifacts = s.work.artifacts.insertMany es ∧
      Kept s'.templates := by
  rw [List.forM_eq_forM] at hr
  induction as generalizing s with
  | nil =>
    cases hr
    exact ⟨[], .nil, rfl, hs⟩
  | cons a as ih =>
    rw [List.forM_cons] at hr
    obtain ⟨_, s₁, h₁, hr⟩ := Build.of_runOn_bind hr
    obtain ⟨e, he, hw, hk⟩ := h a s s₁ hs h₁
    obtain ⟨es, hes, hw', hk'⟩ := ih hk hr
    refine ⟨e :: es, .cons he hes, ?_, hk'⟩
    rw [hw', hw]
    rfl

/-- The file is a copy of the resource, as the library finds it. -/
def Sources.Copies (src : Sources) (l : Library) (res : Resource) (e : String × ByteArray) : Prop :=
  e.1 = res.destination ∧ l.readResource src.tree src.cwd res.source = .ok e.2

/-- The file stands under a path and has the text of the template that goes with it. -/
def Sources.Renders (src : Sources) (l : Library) (scope : Scope) (f : String × String)
    (e : String × ByteArray) : Prop :=
  e.1 = f.1 ∧ ∃ text, src.HasText l f.2 scope text ∧ e.2 = text.toUTF8

theorem writes_copyResource (src : Sources) (l : Library) (res : Resource) :
    (copyResource src res).Writes (· = l) (src.Copies l res) := by
  rintro s s' rfl h
  rw [copyResource, Build.runOn_bind_ok (Build.runOn_get s)] at h
  obtain ⟨content, s₁, h₁, h⟩ := Build.of_runOn_bind h
  cases hr : s.templates.readResource src.tree src.cwd res.source with
  | error e =>
    rw [hr] at h₁
    cases h₁
  | ok b =>
    rw [hr] at h₁
    cases h₁
    cases h
    exact ⟨(res.destination, content), ⟨rfl, hr⟩, rfl, rfl⟩

theorem writes_renderFile (src : Sources) (l : Library) (scope : Scope) (f : String × String) :
    (renderFile src scope f).Writes (src.SameTexts l) (src.Renders l scope f) := by
  intro s s' hs h
  obtain ⟨text, s₁, h₁, h⟩ := Build.of_runOn_bind h
  obtain ⟨ht, hw, hsame⟩ := hasText_of_runOn_render h₁
  cases h
  refine ⟨(f.1, text.toUTF8), ⟨rfl, text, hs.hasText ht, rfl⟩, ?_, ?_⟩
  · exact congrArg (OrderedMap.insert · f.1 text.toUTF8) hw
  · exact fun name scope => (hsame name scope).trans (hs name scope)

/-! ## The flow and the build descriptor -/

/-- A flow does not depend on the workspace it is compiled on, and all it leaves there is the
mappings. -/
theorem flow_of_runOn_generateFlow {settings : Settings} {r : FlowRequest} {flow : Flow}
    {w w' : Workspace} (h : (generateFlow Registry.builtin settings r).runOn w = (.ok flow, w')) :
    (∃ w₀, (generateFlow Registry.builtin settings r).runOn {} = (.ok flow, w₀)) ∧
      w'.artifacts = w.artifacts.insertMany (mappingFiles r.integration.steps) := by
  obtain ⟨ps, hps, rfl, rfl⟩ := runOn_generateFlow_ok_iff.1 h
  exact ⟨⟨_, runOn_generateFlow_ok_iff.2 ⟨ps, hps, rfl, rfl⟩⟩, artifacts_foldl_addTo hps w⟩

/-- What the template of the build descriptor is rendered for. -/
def descriptorScopeOf (i : Integration) : Scope := descriptorScope i (Coordinate.collect i.steps).1

theorem hasText_of_runOn_buildDescriptor {i : Integration} {text : String}
    (h : (buildDescriptor src i).runOn s = (.ok text, s')) :
    src.HasText s.templates descriptorTemplate (descriptorScopeOf i) text ∧
      s'.work.artifacts = s.work.artifacts ∧ src.SameTexts s.templates s'.templates := by
  rw [buildDescriptor] at h
  obtain ⟨_, s₁, h₁, h⟩ := Build.of_runOn_bind h
  cases h₁
  obtain ⟨_, s₂, h₂, h⟩ := Build.of_runOn_bind h
  cases h₂
  have hrender := hasText_of_runOn_render h
  exact hrender

theorem descriptor_of_hasText {c : Compiler} {i : Integration} {text : String}
    (h : src.HasText c.templates descriptorTemplate (descriptorScopeOf i) text) :
    (c.descriptor src i).1 = .ok text := by
  obtain ⟨cs, hcs, rfl⟩ := h
  rw [Compiler.descriptor, Build.runWith_eq]
  change Except.map String.ofList
    (c.templates.render src.tree src.cwd descriptorTemplate (descriptorScopeOf i)).1 = _
  rw [hcs]
  rfl

/-! ## The whole project -/

/-- The files of a project, laid over one another in the order of writing. -/
def Project.assemble (copies documents : List (String × ByteArray)) (steps : List Step)
    (flow : Flow) (pom : String) : Artifacts :=
  OrderedMap.ofList (copies ++ documents ++ mappingFiles steps ++
    [(flowPath, flow.render.toUTF8), (descriptorPath, pom.toUTF8)])

/-- What a build that succeeds has done, whatever the visitors are: they come behind the copies of
the resources and the documents of the request, and before the route document and the build
descriptor. -/
theorem exists_of_generate {c : Compiler} {r : FlowRequest} {files : Artifacts}
    (h : (c.generate src r).1 = .ok files) :
    ∃ (copies documents : List (String × ByteArray)) (flow : Flow) (w w' : Workspace)
        (pom : String),
      Forall₂ (src.Copies c.templates) c.settings.templates.resources copies ∧
      Forall₂ (src.Renders c.templates (requestScope r)) requestFiles documents ∧
      w.artifacts = OrderedMap.ofList (copies ++ documents) ∧
      (generateFlow c.registry c.settings r).runOn w = (.ok flow, w') ∧
      src.HasText c.templates descriptorTemplate (descriptorScopeOf r.integration) pom ∧
      files = w'.artifacts.insertMany
        [(flowPath, flow.render.toUTF8), (descriptorPath, pom.toUTF8)] := by
  rw [Compiler.generate, Build.runWith_eq] at h
  obtain ⟨⟨result, s⟩, hrun⟩ : ∃ p, (buildProject src c.settings c.registry r).runOn
      { templates := c.templates } = p := ⟨_, rfl⟩
  rw [hrun] at h
  dsimp only at h
  rw [h, buildProject, Build.runOn_bind_ok (Build.runOn_log _ _ _)] at hrun
  obtain ⟨_, s₁, h₁, hrun⟩ := Build.of_runOn_bind hrun
  obtain ⟨copies, hcopies, hw₁, hk₁⟩ :=
    Build.Writes.forM (writes_copyResource src c.templates) _ rfl h₁
  obtain ⟨_, s₂, h₂, hrun⟩ := Build.of_runOn_bind hrun
  obtain ⟨documents, hdocuments, hw₂, hk₂⟩ :=
    Build.Writes.forM (writes_renderFile src c.templates _) _ (by rw [hk₁]; exact fun _ _ => rfl) h₂
  obtain ⟨flow, s₃, h₃, hrun⟩ := Build.of_runOn_bind hrun
  rw [Build.runOn_ofCompile] at h₃
  obtain ⟨hok, rfl⟩ := Prod.mk.inj h₃
  rw [Build.runOn_bind_ok (Build.runOn_write _ _ _)] at hrun
  obtain ⟨pom, s₄, h₄, hrun⟩ := Build.of_runOn_bind hrun
  obtain ⟨hpom, hw₄, -⟩ := hasText_of_runOn_buildDescriptor h₄
  rw [Build.runOn_bind_ok (Build.runOn_write _ _ _), Build.runOn_bind_ok (Build.runOn_get _),
    Build.runOn_bind_ok (Build.runOn_log _ _ _)] at hrun
  obtain ⟨hfiles, -⟩ := Prod.mk.inj hrun
  refine ⟨copies, documents, flow, s₂.work, _, pom, hcopies, hdocuments, ?_, Prod.ext hok rfl,
    Sources.SameTexts.hasText hk₂ hpom, ?_⟩
  · rw [hw₂, hw₁, OrderedMap.ofList, OrderedMap.insertMany_append]
    rfl
  · obtain rfl := Except.ok.inj hfiles
    dsimp only at hw₄ ⊢
    rw [hw₄]
    rfl

/-- With the built-in visitors, these are the mappings. -/
theorem generate_eq_assemble {c : Compiler} {r : FlowRequest} {files : Artifacts}
    (hr : c.registry = Registry.builtin) (h : (c.generate src r).1 = .ok files) :
    ∃ (copies documents : List (String × ByteArray)) (flow : Flow) (pom : String),
      Forall₂ (src.Copies c.templates) c.settings.templates.resources copies ∧
      Forall₂ (src.Renders c.templates (requestScope r)) requestFiles documents ∧
      (∃ w, (generateFlow c.registry c.settings r).runOn {} = (.ok flow, w)) ∧
      (c.descriptor src r.integration).1 = .ok pom ∧
      files = assemble copies documents r.integration.steps flow pom := by
  obtain ⟨copies, documents, flow, w, w', pom, hcopies, hdocuments, hw, hrun, hpom, rfl⟩ :=
    exists_of_generate h
  rw [hr] at hrun
  obtain ⟨hflow, hw'⟩ := flow_of_runOn_generateFlow hrun
  refine ⟨copies, documents, flow, pom, hcopies, hdocuments, hr ▸ hflow,
    descriptor_of_hasText hpom, ?_⟩
  rw [hw', hw, assemble]
  simp only [OrderedMap.ofList, OrderedMap.insertMany_append]

end RouteCompiler
