import RouteCompiler.Proofs.Project.Outcome
import RouteCompiler.Proofs.Project.Writing

/-!
What a project holds at which path, and in which order. Whatever is written to the same path, the
build descriptor, the route document, the mappings and the documents of the request stand as they
are made on their own; an additional resource shows only at a path that none of these has, and of
several resources for one path the last shows.
-/

namespace RouteCompiler

open List (Forall₂)
open Project Template

/-! ## Paths of mappings -/

namespace Mapper

theorem toList_filePath (i : Nat) : (filePath i).toList =
    "src/main/resources/mapping-step-".toList ++ (Nat.toDigits 10 i ++ ".json".toList) := by
  have h : filePath i = "src/main/resources" ++ "/" ++ ("mapping-step-" ++ i.repr ++ ".json") := rfl
  rw [h]
  simp

theorem filePath_injective {i j : Nat} (h : filePath i = filePath j) : i = j := by
  have hd : Nat.toDigits 10 i = Nat.toDigits 10 j := by
    have hl := congrArg String.toList h
    rw [toList_filePath, toList_filePath] at hl
    exact List.append_cancel_right (List.append_cancel_left hl)
  calc i = Nat.ofDigitChars 10 (Nat.toDigits 10 i) 0 := Nat.ofDigitChars_ten_toDigits.symm
    _ = j := by rw [hd, Nat.ofDigitChars_ten_toDigits]

/-- No document made for every request stands in the place of a mapping. -/
theorem filePath_notMem_generatedPaths (i : Nat) : filePath i ∉ generatedPaths := by
  have hp : (filePath i).toList.take 20 = "src/main/resources/m".toList := by
    rw [toList_filePath]
    simp
  intro h
  simp only [generatedPaths, List.mem_cons, List.not_mem_nil, or_false] at h
  rcases h with h | h | h | h | h <;> rw [h] at hp <;> revert hp <;> decide

end Mapper

namespace Project

theorem mem_mappingFiles_iff {steps : List Step} {e : String × ByteArray} :
    e ∈ mappingFiles steps ↔ ∃ i s m, steps[i]? = some s ∧ s.Maps m ∧
      e = (Mapper.filePath (i + 1), m.toUTF8) := by
  rw [mappingFiles, List.mem_filterMap]
  constructor
  · rintro ⟨c, hc, he⟩
    obtain ⟨i, hi⟩ := List.mem_iff_getElem?.1 hc
    rw [StepCursor.getElem?_places] at hi
    obtain ⟨s, hs, rfl⟩ := Option.map_eq_some_iff.1 hi
    obtain ⟨m, hm, rfl⟩ := Option.map_eq_some_iff.1 he
    exact ⟨i, s, m, hs, (s.mapping?_eq_some_iff m).1 hm, rfl⟩
  · rintro ⟨i, s, m, hs, hm, rfl⟩
    refine ⟨⟨i + 1, s, steps, Nat.le_add_left 1 i⟩, List.mem_iff_getElem?.2 ⟨i, ?_⟩, ?_⟩
    · rw [StepCursor.getElem?_places, hs]
      rfl
    · rw [mappingFile?, (s.mapping?_eq_some_iff m).2 hm]
      rfl

/-- Mappings of different steps have different files. -/
theorem nodup_mappingFiles (steps : List Step) : ((mappingFiles steps).map Prod.fst).Nodup := by
  have hp : (StepCursor.places steps).Pairwise fun c d => c.index ≠ d.index := by
    rw [List.pairwise_iff_getElem]
    intro i j hi hj hij
    simp only [StepCursor.places, List.getElem_mapIdx]
    omega
  rw [List.Nodup, List.pairwise_map]
  refine hp.filterMap mappingFile? ?_
  intro c d hcd e he e' he' hpath
  obtain ⟨_, -, rfl⟩ := Option.map_eq_some_iff.1 he
  obtain ⟨_, -, rfl⟩ := Option.map_eq_some_iff.1 he'
  exact hcd (Mapper.filePath_injective hpath)

end Project

/-! ## Resources -/

/-- Where the directory `d` has the resource `name`. -/
def resourcePath (d : Path) (name : String) : Path := d.join (Path.ofString name)

/-- The content of a resource: that of the file in the override directory, and that of the file in
the root where the override directory has none or is not given. -/
def Sources.Supplies (src : Sources) (l : Library) (name : String) (content : ByteArray) : Prop :=
  (∃ p, said l.overridePath = some p ∧
    src.tree.stat src.cwd (resourcePath (l.root.join (Path.ofString p)) name) =
      .ok (.file content)) ∨
  ((∀ p, said l.overridePath = some p →
      src.tree.isFile src.cwd (resourcePath (l.root.join (Path.ofString p)) name) = false) ∧
    src.tree.stat src.cwd (resourcePath l.root name) = .ok (.file content))

namespace Template.Library

variable {l : Library} {t : FileTree} {cwd : Location} {name : String} {q : Path}
  {content : ByteArray}

theorem exists_resolve_of_readResource (h : l.readResource t cwd name = .ok content) :
    ∃ q, l.resolve t cwd name = .ok q ∧ t.read cwd q = .ok content := by
  obtain ⟨q, hq, h⟩ := exists_of_bind_eq_ok h
  rw [mapError_eq_ok_iff] at hq h
  exact ⟨q, hq, h⟩

/-- A resource is looked for in the override directory first, and then in the root. -/
theorem resolve_cases (h : l.resolve t cwd name = .ok q) :
    (∃ p, said l.overridePath = some p ∧
      q = resourcePath (l.root.join (Path.ofString p)) name) ∨
    ((∀ p, said l.overridePath = some p →
        t.isFile cwd (resourcePath (l.root.join (Path.ofString p)) name) = false) ∧
      q = resourcePath l.root name) := by
  unfold resourcePath
  rw [resolve, searchPath, ← said] at h
  cases ho : said l.overridePath with
  | none =>
    simp only [ho, List.map_cons, List.map_nil, List.find?_cons, List.find?_nil] at h
    cases hroot : t.isFile cwd (l.root.join (Path.ofString name)) with
    | false => simp [hroot] at h
    | true =>
      simp only [hroot, Except.ok.injEq] at h
      refine .inr ⟨fun p hp => ?_, h.symm⟩
      cases hp
  | some p =>
    simp only [ho, List.map_cons, List.map_nil, List.find?_cons, List.find?_nil] at h
    cases hover : t.isFile cwd ((l.root.join (Path.ofString p)).join (Path.ofString name)) with
    | true =>
      simp only [hover, Except.ok.injEq] at h
      exact .inl ⟨p, rfl, h.symm⟩
    | false =>
      cases hroot : t.isFile cwd (l.root.join (Path.ofString name)) with
      | false => simp [hover, hroot] at h
      | true =>
        simp only [hover, hroot, Except.ok.injEq] at h
        refine .inr ⟨?_, h.symm⟩
        rintro _ ⟨⟩
        exact hover

end Template.Library

theorem Sources.supplies_of_readResource {src : Sources} {l : Library} {name : String}
    {content : ByteArray} (h : l.readResource src.tree src.cwd name = .ok content) :
    src.Supplies l name content := by
  obtain ⟨q, hq, hread⟩ := Library.exists_resolve_of_readResource h
  have hstat := FileTree.read_eq_ok_iff.1 hread
  obtain ⟨p, hp, rfl⟩ | ⟨hover, rfl⟩ := Library.resolve_cases hq
  · exact .inl ⟨p, hp, hstat⟩
  · exact .inr ⟨hover, hstat⟩

/-! ## The contents of a project -/

namespace Project

/-- The paths of what a build makes itself. -/
def ownPaths (steps : List Step) : List String :=
  generatedPaths ++ (mappingFiles steps).map Prod.fst

/-- What the project of a request holds, path by path. -/
structure Contents (c : Compiler) (src : Sources) (r : FlowRequest) (files : Artifacts) : Prop where
  /-- The build descriptor is the one that is made on its own. -/
  descriptor : ∃ text, (c.descriptor src r.integration).1 = .ok text ∧
    files.get? descriptorPath = some text.toUTF8
  /-- The route document is that of the flow that is compiled on its own. -/
  route : ∃ flow w, (generateFlow c.registry c.settings r).runOn {} = (.ok flow, w) ∧
    files.get? flowPath = some flow.render.toUTF8
  mapping : ∀ i s m, r.integration.steps[i]? = some s → s.Maps m →
    files.get? (Mapper.filePath (i + 1)) = some m.toUTF8
  document : ∀ f ∈ requestFiles, ∃ text, src.HasText c.templates f.2 (requestScope r) text ∧
    files.get? f.1 = some text.toUTF8
  /-- The last resource for a path shows, unless the build makes a file of that path itself. -/
  resource : ∀ before res after, c.settings.templates.resources = before ++ res :: after →
    (∀ q ∈ after, q.destination ≠ res.destination) →
    res.destination ∉ ownPaths r.integration.steps →
    ∃ content, src.Supplies c.templates res.source content ∧
      files.get? res.destination = some content
  /-- There are no other paths, and each stands where it was first written. -/
  keys : files.keys = (c.settings.templates.resources.map (·.destination) ++
    requestFiles.map Prod.fst ++ (mappingFiles r.integration.steps).map Prod.fst ++
    [flowPath, descriptorPath]).eraseDups

end Project

/-! ## Builds that succeed -/

theorem runOn_copyResources_ok {src : Sources} {resources : List Resource} {s : BuildState}
    (h : ∀ res ∈ resources, ∃ content,
      s.templates.readResource src.tree src.cwd res.source = .ok content) :
    ∃ s', (resources.forM (copyResource src)).runOn s = (.ok (), s') ∧
      s'.templates = s.templates := by
  rw [List.forM_eq_forM]
  induction resources generalizing s with
  | nil => exact ⟨s, rfl, rfl⟩
  | cons res resources ih =>
    obtain ⟨content, hc⟩ := h res List.mem_cons_self
    obtain ⟨s₁, hs₁, ht⟩ : ∃ s₁, (copyResource src res).runOn s = (.ok (), s₁) ∧
        s₁.templates = s.templates := by
      rw [copyResource, Build.runOn_bind_ok (Build.runOn_get s), hc]
      exact ⟨_, rfl, rfl⟩
    obtain ⟨s', hs', ht'⟩ := ih (s := s₁) fun q hq => ht ▸ h q (List.mem_cons_of_mem res hq)
    refine ⟨s', ?_, ht'.trans ht⟩
    rw [List.forM_cons, Build.runOn_bind_ok hs₁, hs']

/-- A build succeeds if its resources are there and no step fails. -/
theorem exists_generate_ok {c : Compiler} {src : Sources} {r : FlowRequest}
    (hr : c.registry = Registry.builtin) (ht : src.ServesShipped c.templates)
    (hres : ∀ res ∈ c.settings.templates.resources, ∃ content,
      c.templates.readResource src.tree src.cwd res.source = .ok content)
    (hs : ∀ s ∈ r.integration.steps, ¬ s.Fails r) :
    ∃ files, (c.generate src r).1 = .ok files := by
  rw [Compiler.generate, Build.runWith_eq, hr, buildProject_eq,
    Build.runOn_bind_ok (Build.runOn_log _ _ _)]
  obtain ⟨s', hcopied, hkept⟩ := runOn_copyResources_ok (s := ⟨_, c.templates⟩) hres
  rw [Build.runOn_bind_ok hcopied]
  have hserves : src.ServesShipped s'.templates := hkept ▸ ht
  obtain ⟨records, entry, l₁, l₂, -, -, hrun⟩ := runOn_buildDocuments hserves
  obtain ⟨ps, hps⟩ := runOn_compileSteps_of_not_fails c.settings hs
    (s'.work.extend (requestDocuments r.integration) records)
  rw [show s' = ⟨s'.work, s'.templates⟩ from rfl, hrun, hps]
  exact ⟨_, rfl⟩

/-! ## Precedence -/

section
variable {α β : Type} {R : α → β → Prop} {as : List α} {bs : List β}

theorem exists_mem_of_forall₂ (h : Forall₂ R as bs) {a : α} (ha : a ∈ as) : ∃ b ∈ bs, R a b := by
  induction h with
  | nil => cases ha
  | @cons a' b as bs hab h ih =>
    obtain rfl | ha := List.mem_cons.1 ha
    · exact ⟨b, List.mem_cons_self, hab⟩
    · obtain ⟨b', hb', hr⟩ := ih ha
      exact ⟨b', List.mem_cons_of_mem b hb', hr⟩

theorem exists_append_of_forall₂ {before after : List α} {a : α}
    (h : Forall₂ R (before ++ a :: after) bs) :
    ∃ b₁ b b₂, bs = b₁ ++ b :: b₂ ∧ R a b ∧ Forall₂ R after b₂ := by
  induction before generalizing bs with
  | nil =>
    cases h with
    | cons hab h => exact ⟨[], _, _, rfl, hab, h⟩
  | cons a' before ih =>
    cases h with
    | @cons _ b' _ _ _ h =>
      obtain ⟨b₁, b, b₂, rfl, hab, h⟩ := ih h
      exact ⟨b' :: b₁, b, b₂, rfl, hab, h⟩

theorem map_eq_of_forall₂ {γ : Type} {f : α → γ} {g : β → γ} (h : Forall₂ R as bs)
    (hfg : ∀ a b, R a b → g b = f a) : bs.map g = as.map f := by
  induction h with
  | nil => rfl
  | cons hab h ih => rw [List.map_cons, List.map_cons, hfg _ _ hab, ih]

end

namespace Project

variable {copies documents : List (String × ByteArray)} {steps : List Step} {flow : Flow}
  {pom : String}

theorem keys_assemble : (assemble copies documents steps flow pom).keys =
    (copies.map Prod.fst ++ documents.map Prod.fst ++ (mappingFiles steps).map Prod.fst ++
      [flowPath, descriptorPath]).eraseDups := by
  rw [assemble, OrderedMap.keys_ofList]
  simp only [List.map_append]
  rfl

theorem get?_assemble_closing {e : String × ByteArray}
    (h : e ∈ [(flowPath, flow.render.toUTF8), (descriptorPath, pom.toUTF8)]) :
    (assemble copies documents steps flow pom).get? e.1 = some e.2 := by
  have hn : [flowPath, descriptorPath].Nodup := by decide
  rw [assemble, OrderedMap.ofList, OrderedMap.insertMany_append]
  exact OrderedMap.get?_insertMany_of_mem _ hn h

theorem notMem_mappingFiles {p : String} (h : p ∈ generatedPaths) :
    p ∉ (mappingFiles steps).map Prod.fst := by
  intro hp
  obtain ⟨e, he, rfl⟩ := List.mem_map.1 hp
  obtain ⟨i, s, m, -, -, rfl⟩ := mem_mappingFiles_iff.1 he
  exact Mapper.filePath_notMem_generatedPaths _ h

theorem closingPaths_subset : ∀ p ∈ [flowPath, descriptorPath], p ∈ generatedPaths := by
  decide

theorem get?_assemble_mapping {e : String × ByteArray} (h : e ∈ mappingFiles steps) :
    (assemble copies documents steps flow pom).get? e.1 = some e.2 := by
  have hp : e.1 ∉ [flowPath, descriptorPath] := fun hp =>
    notMem_mappingFiles (closingPaths_subset e.1 hp) (List.mem_map_of_mem h)
  rw [assemble, OrderedMap.ofList, OrderedMap.insertMany_append,
    OrderedMap.get?_insertMany_of_notMem _ hp, OrderedMap.insertMany_append]
  exact OrderedMap.get?_insertMany_of_mem _ (nodup_mappingFiles steps) h

theorem requestPaths_subset : ∀ p ∈ requestFiles.map Prod.fst,
    p ∈ generatedPaths ∧ p ∉ [flowPath, descriptorPath] := by
  decide

theorem get?_assemble_document (hd : documents.map Prod.fst = requestFiles.map Prod.fst)
    {e : String × ByteArray} (h : e ∈ documents) :
    (assemble copies documents steps flow pom).get? e.1 = some e.2 := by
  have hp := requestPaths_subset e.1 (hd ▸ List.mem_map_of_mem h)
  rw [assemble, OrderedMap.ofList, OrderedMap.insertMany_append,
    OrderedMap.get?_insertMany_of_notMem _ hp.2, OrderedMap.insertMany_append,
    OrderedMap.get?_insertMany_of_notMem _ (notMem_mappingFiles hp.1),
    OrderedMap.insertMany_append]
  exact OrderedMap.get?_insertMany_of_mem _ (by rw [hd]; decide) h

/-- The last copy for a path shows where the build makes no file of its own. -/
theorem get?_assemble_copy (hd : documents.map Prod.fst = requestFiles.map Prod.fst)
    {before after : List (String × ByteArray)} {e : String × ByteArray}
    (hown : e.1 ∉ ownPaths steps) (hlast : e.1 ∉ after.map Prod.fst) :
    (assemble (before ++ e :: after) documents steps flow pom).get? e.1 = some e.2 := by
  rw [ownPaths, List.mem_append, not_or] at hown
  have hp : e.1 ∉ [flowPath, descriptorPath] := fun h => hown.1 (closingPaths_subset e.1 h)
  have hdocuments : e.1 ∉ documents.map Prod.fst := fun h =>
    hown.1 (requestPaths_subset e.1 (hd ▸ h)).1
  rw [assemble, OrderedMap.ofList, OrderedMap.insertMany_append,
    OrderedMap.get?_insertMany_of_notMem _ hp, OrderedMap.insertMany_append,
    OrderedMap.get?_insertMany_of_notMem _ hown.2, OrderedMap.insertMany_append,
    OrderedMap.get?_insertMany_of_notMem _ hdocuments]
  exact OrderedMap.get?_insertMany_last _ e.2 before hlast

end Project

theorem keys_of_generate {c : Compiler} {src : Sources} {r : FlowRequest} {files : Artifacts}
    (hr : c.registry = Registry.builtin) (h : (c.generate src r).1 = .ok files) :
    files.keys = (c.settings.templates.resources.map (·.destination) ++
      requestFiles.map Prod.fst ++ (mappingFiles r.integration.steps).map Prod.fst ++
      [flowPath, descriptorPath]).eraseDups := by
  obtain ⟨copies, documents, flow, pom, hcopies, hdocuments, -, -, rfl⟩ :=
    generate_eq_assemble hr h
  rw [keys_assemble, map_eq_of_forall₂ hcopies fun _ _ h => h.1,
    map_eq_of_forall₂ hdocuments fun _ _ h => h.1]

/-- A project has under the destination of a resource its content, unless the build makes a file
there or a later resource has the same destination. -/
theorem get?_of_resource {c : Compiler} {src : Sources} {r : FlowRequest} {files : Artifacts}
    (hr : c.registry = Registry.builtin) (h : (c.generate src r).1 = .ok files)
    {before after : List Resource} {res : Resource}
    (hres : c.settings.templates.resources = before ++ res :: after)
    (hlast : ∀ q ∈ after, q.destination ≠ res.destination)
    (hown : res.destination ∉ ownPaths r.integration.steps) :
    ∃ b, c.templates.readResource src.tree src.cwd res.source = .ok b ∧
      files.get? res.destination = some b := by
  obtain ⟨copies, documents, flow, pom, hcopies, hdocuments, -, -, rfl⟩ :=
    generate_eq_assemble hr h
  rw [hres] at hcopies
  obtain ⟨c₁, ⟨p, b⟩, c₂, rfl, ⟨rfl, hread⟩, hafter⟩ := exists_append_of_forall₂ hcopies
  refine ⟨b, hread, ?_⟩
  refine get?_assemble_copy (map_eq_of_forall₂ hdocuments fun _ _ h => h.1) hown ?_
  rw [map_eq_of_forall₂ hafter fun _ _ h => h.1]
  intro hp
  obtain ⟨q, hq, hqp⟩ := List.mem_map.1 hp
  exact hlast q hq hqp

/-- A build that succeeds leaves a project with these contents. -/
theorem contents_of_generate {c : Compiler} {src : Sources} {r : FlowRequest} {files : Artifacts}
    (hr : c.registry = Registry.builtin) (h : (c.generate src r).1 = .ok files) :
    Contents c src r files := by
  obtain ⟨copies, documents, flow, pom, hcopies, hdocuments, ⟨w, hflow⟩, hpom, rfl⟩ :=
    generate_eq_assemble hr h
  have hkd := map_eq_of_forall₂ hdocuments fun _ _ h => h.1
  refine ⟨⟨pom, hpom, ?_⟩, ⟨flow, w, hflow, ?_⟩, ?_, ?_, ?_, ?_⟩
  · exact get?_assemble_closing (e := (descriptorPath, _)) (by simp)
  · exact get?_assemble_closing (e := (flowPath, _)) (by simp)
  · intro i s m hs hm
    exact get?_assemble_mapping (mem_mappingFiles_iff.2 ⟨i, s, m, hs, hm, rfl⟩)
  · intro f hf
    obtain ⟨⟨p, content⟩, he, rfl, text, htext, rfl⟩ := exists_mem_of_forall₂ hdocuments hf
    exact ⟨text, htext, get?_assemble_document hkd he⟩
  · intro before res after hres hlast hown
    obtain ⟨content, hread, hget⟩ := get?_of_resource hr h hres hlast hown
    exact ⟨content, src.supplies_of_readResource hread, hget⟩
  · exact keys_of_generate hr h

/-- Resources that are in each other's way, in the way of the build descriptor, and in the way of a
mapping. -/
def collidingResources : List Resource :=
  [ ⟨"README.md.jinja", "notes.txt"⟩, ⟨"pom.xml.jinja", descriptorPath⟩,
    ⟨"Application.java.jinja", "src/main/resources/mapping-step-1.json"⟩,
    ⟨"application.properties.jinja", "notes.txt"⟩ ]

/-- Two mappings with a step between them, and a mapper step without one. -/
def mappedTwice : FlowRequest where
  integration :=
    { name := "mapped"
      steps :=
        [ { kind := "mapper", configured := OrderedMap.ofList [(Mapper.mappingKey, "first")] },
          { kind := "log" }, { kind := "mapper" },
          { kind := "mapper", configured := OrderedMap.ofList [(Mapper.mappingKey, "second")] } ] }

theorem not_fails_mappedTwice : ∀ s ∈ mappedTwice.integration.steps, ¬ s.Fails mappedTwice := by
  have hk : ∀ s ∈ mappedTwice.integration.steps,
      s.kind ∈ Registry.builtin.keys ∧ s.kind ≠ "endpoint" ∧ s.kind ≠ "rule-filter" := by
    decide
  rintro s hs (h | ⟨h, -⟩ | ⟨h, -⟩)
  · exact h (hk s hs).1
  · exact (hk s hs).2.1 h
  · exact (hk s hs).2.2 h

/-- With the shipped templates, and resources from among them, a build succeeds if no step fails. -/
theorem exists_generate_installed (t : FileTree) (cwd : Location) {resources : List Resource}
    {r : FlowRequest} (hres : ∀ res ∈ resources, ∃ f ∈ Shipped.files, res.source = f.1)
    (hs : ∀ s ∈ r.integration.steps, ¬ s.Fails r) :
    ∃ files, ((Compiler.ofSettings { templates := { resources } }).generate
      ⟨Shipped.install t, cwd⟩ r).1 = .ok files := by
  have ht : Sources.ServesShipped ⟨Shipped.install t, cwd⟩
      (Compiler.ofSettings { templates := { resources } }).templates :=
    Library.servesShipped_ofSettings (s := { resources }) rfl rfl
  refine exists_generate_ok rfl ht (fun res hmem => ?_) hs
  obtain ⟨f, hf, hsource⟩ := hres res hmem
  refine ⟨f.2.toUTF8, ?_⟩
  rw [hsource]
  exact Library.readResource_install (s := { resources }) rfl rfl hf

theorem exists_generate_mappedTwice :
    ∃ files, ((Compiler.ofSettings { templates := { resources := collidingResources } }).generate
      ⟨Shipped.install FileTree.empty, []⟩ mappedTwice).1 = .ok files :=
  exists_generate_installed _ _ (by simp [collidingResources, Shipped.files]) not_fails_mappedTwice

theorem contents_mappedTwice :
    ∃ files, ((Compiler.ofSettings { templates := { resources := collidingResources } }).generate
        ⟨Shipped.install FileTree.empty, []⟩ mappedTwice).1 = .ok files ∧
      Contents (Compiler.ofSettings { templates := { resources := collidingResources } })
        ⟨Shipped.install FileTree.empty, []⟩ mappedTwice files := by
  obtain ⟨files, h⟩ := exists_generate_mappedTwice
  exact ⟨files, h, contents_of_generate rfl h⟩

end RouteCompiler
