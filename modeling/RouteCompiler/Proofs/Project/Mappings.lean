import RouteCompiler.Proofs.Project.Precedence

/-!
Mappings and the route elements that refer to them. A mapper step with a mapping makes one element,
named for its position among all steps, and the project has the mapping under that name; nothing
else that is built or copied takes its place. A mapper step without a mapping leaves no trace.
-/

namespace RouteCompiler

open Project Template

namespace Mapper

theorem filePath_eq (i : Nat) : filePath i = s!"src/main/resources/mapping-step-{i}.json" := by
  change filePath i = "src/main/resources/mapping-step-" ++ i.repr ++ ".json"
  rw [← String.toList_inj, toList_filePath]
  simp

theorem element_eq (i : Nat) : element i = .endpoint s!"atlas:mapping-step-{i}.json" := by
  change Element.endpoint ("atlas" ++ ":" ++ ("mapping-step-" ++ i.repr ++ ".json")) =
    .endpoint ("atlas:mapping-step-" ++ i.repr ++ ".json")
  rw [Element.endpoint.injEq, ← String.toList_inj]
  simp

end Mapper

namespace Compiled

variable {i : Nat} {s : Step}

theorem mapperStep_of_maps (hk : s.kind = "mapper") {m : String} (h : s.Maps m) :
    (mapperStep i s).element = some (Mapper.element i) ∧
      (mapperStep i s).files = [(Mapper.filePath i, m.toUTF8)] := by
  have hm := (s.mapping?_eq_some_iff m).2 h
  rw [Step.mapping?, if_pos hk] at hm
  simp [mapperStep, hm]

theorem mapperStep_of_not_maps (hk : s.kind = "mapper") (h : ∀ m, ¬ s.Maps m) :
    (mapperStep i s).element = none ∧ (mapperStep i s).files = [] := by
  have hm : s.mapping? = none := Option.eq_none_iff_forall_ne_some.2 fun m hm =>
    h m ((s.mapping?_eq_some_iff m).1 hm)
  rw [Step.mapping?, if_pos hk] at hm
  simp [mapperStep, hm, skipped]

end Compiled

section
variable {settings : Settings} {r : FlowRequest} {flow : Flow} {w w' : Workspace}

theorem compiles_of_runOn_generateFlow
    (h : (generateFlow Registry.builtin settings r).runOn w = (.ok flow, w')) :
    ∀ c ∈ StepCursor.places r.integration.steps,
      ∃ p, Compiled.ofStep ⟨settings, r⟩ c.index c.step = .ok p := by
  obtain ⟨ps, hps, -, -⟩ := runOn_generateFlow_ok_iff.1 h
  intro c hc
  obtain ⟨p, -, hp⟩ := exists_mem_of_forall₂ hps hc
  exact ⟨p, hp⟩

/-- A flow that compiles is made of the elements of its trace, which visits every step. -/
theorem exists_trace_of_runOn_generateFlow
    (h : (generateFlow Registry.builtin settings r).runOn w = (.ok flow, w')) :
    ∃ t, IsTrace Registry.builtin ⟨settings, r⟩ (StepCursor.places r.integration.steps) w t ∧
      t.length = r.integration.steps.length ∧ flow.steps = Dispatch.elements t := by
  refine ⟨_, isTrace_iff.2 rfl,
    (isTrace_iff.2 rfl).length_eq (compiles_of_runOn_generateFlow h), ?_⟩
  rw [runOn_generateFlow_eq_conclusion] at h
  obtain ⟨hf, -⟩ := Prod.mk.inj h
  cases hc : (Dispatch.conclusion w (traceOf Registry.builtin ⟨settings, r⟩
      (StepCursor.places r.integration.steps) w)).1 with
  | error e =>
    rw [hc] at hf
    cases hf
  | ok es =>
    rw [hc] at hf
    cases hf
    exact Dispatch.eq_elements_of_conclusion hc

/-- What the dispatch of a mapper step leaves. -/
theorem IsTrace.mapperStep {x : Context} {steps : List Step} {t : List Dispatch} {i : Nat}
    {s : Step} {d : Dispatch} (ht : IsTrace Registry.builtin x (StepCursor.places steps) w t)
    (hs : steps[i]? = some s) (hd : t[i]? = some d) (hk : s.kind = "mapper") :
    d.outcome.element? = (Compiled.mapperStep (i + 1) s).element ∧
      d.after = (Compiled.mapperStep (i + 1) s).addTo (Dispatch.before w t i) := by
  obtain ⟨hi, rfl⟩ := List.getElem?_eq_some_iff.1 hd
  have hplace := ht.getElem?_cursor hi
  rw [StepCursor.getElem?_places, hs] at hplace
  have hcursor : t[i].cursor = ⟨i + 1, s, steps, Nat.le_add_left 1 i⟩ :=
    (Option.some.inj hplace).symm
  have hc : Compiled.ofStep x t[i].cursor.index t[i].cursor.step =
      .ok (Compiled.mapperStep (i + 1) s) := by
    rw [hcursor, Compiled.ofStep]
    simp [hk]
  have hdis := ht.dispatched i hi
  rw [dispatch_of_compiles hc] at hdis
  obtain ⟨houtcome, hafter⟩ := Prod.mk.inj hdis
  rw [← houtcome, ← hafter]
  exact ⟨rfl, rfl⟩

end

/-- Without a mapping for its position, only a resource can have the path of a mapping. -/
theorem exists_resource_of_contains {copies documents : List (String × ByteArray)}
    {steps : List Step} {flow : Flow} {pom : String} {resources : List Resource} {i : Nat}
    {s : Step} (hc : copies.map Prod.fst = resources.map (·.destination))
    (hd : documents.map Prod.fst = requestFiles.map Prod.fst)
    (hs : steps[i]? = some s) (hm : ∀ m, ¬ s.Maps m)
    (h : (assemble copies documents steps flow pom).contains (Mapper.filePath (i + 1)) = true) :
    ∃ res ∈ resources, res.destination = Mapper.filePath (i + 1) := by
  have hg := Mapper.filePath_notMem_generatedPaths (i + 1)
  rw [OrderedMap.contains_iff_mem_keys, keys_assemble, List.mem_eraseDups, hc, hd] at h
  simp only [List.mem_append] at h
  obtain ((h | h) | h) | h := h
  · obtain ⟨res, hres, he⟩ := List.mem_map.1 h
    exact ⟨res, hres, he⟩
  · exact absurd (requestPaths_subset _ h).1 hg
  · obtain ⟨e, he, hp⟩ := List.mem_map.1 h
    obtain ⟨j, s', m, hs', hm', rfl⟩ := mem_mappingFiles_iff.1 he
    obtain rfl : j = i := Nat.succ.inj (Mapper.filePath_injective hp)
    rw [hs] at hs'
    cases hs'
    exact absurd hm' (hm m)
  · exact absurd (closingPaths_subset _ h) hg

/-- What mapper steps contribute to the route and to the project. Every step has its place in the
trace of the flow. With a mapping, a mapper step puts one element into the route and its mapping
into a file named for its position, where the project has it in the end. Without a mapping it
contributes neither. No two positions share a file. -/
theorem generate_mappings {c : Compiler} {src : Sources} {r : FlowRequest} {files : Artifacts}
    (hr : c.registry = Registry.builtin) (h : (c.generate src r).1 = .ok files) :
    ∃ (flow : Flow) (t : List Dispatch),
      files.get? flowPath = some flow.render.toUTF8 ∧
      (∃ w, (generateFlow c.registry c.settings r).runOn {} = (.ok flow, w)) ∧
      IsTrace c.registry ⟨c.settings, r⟩ (StepCursor.places r.integration.steps) {} t ∧
      t.length = r.integration.steps.length ∧ flow.steps = Dispatch.elements t ∧
      (∀ i s d, r.integration.steps[i]? = some s → t[i]? = some d → s.kind = "mapper" →
        (∀ m, s.Maps m →
          d.outcome.element? = some (.endpoint s!"atlas:mapping-step-{i + 1}.json") ∧
          d.after.artifacts = (Dispatch.before {} t i).artifacts.insert
            s!"src/main/resources/mapping-step-{i + 1}.json" m.toUTF8 ∧
          files.get? s!"src/main/resources/mapping-step-{i + 1}.json" = some m.toUTF8) ∧
        ((∀ m, ¬ s.Maps m) →
          d.outcome.element? = none ∧
          d.after.artifacts = (Dispatch.before {} t i).artifacts ∧
          (files.contains s!"src/main/resources/mapping-step-{i + 1}.json" = true →
            ∃ res ∈ c.settings.templates.resources,
              res.destination = s!"src/main/resources/mapping-step-{i + 1}.json"))) ∧
      (∀ i j : Nat, s!"src/main/resources/mapping-step-{i + 1}.json" =
        s!"src/main/resources/mapping-step-{j + 1}.json" → i = j) := by
  obtain ⟨copies, documents, flow, pom, hcopies, hdocuments, ⟨w, hflow⟩, -, rfl⟩ :=
    generate_eq_assemble hr h
  rw [hr] at hflow
  obtain ⟨t, ht, hlength, helements⟩ := exists_trace_of_runOn_generateFlow hflow
  refine ⟨flow, t, get?_assemble_closing (e := (flowPath, _)) (by simp), ⟨w, hr ▸ hflow⟩, hr ▸ ht,
    hlength, helements, ?_, ?_⟩
  · intro i s d hs hd hk
    obtain ⟨helement, hafter⟩ := ht.mapperStep hs hd hk
    rw [← Mapper.filePath_eq, ← Mapper.element_eq]
    refine ⟨fun m hm => ?_, fun hm => ?_⟩
    · obtain ⟨he, hf⟩ := Compiled.mapperStep_of_maps (i := i + 1) hk hm
      refine ⟨helement.trans he, ?_,
        get?_assemble_mapping (mem_mappingFiles_iff.2 ⟨i, s, m, hs, hm, rfl⟩)⟩
      rw [hafter, Compiled.addTo, hf]
      rfl
    · obtain ⟨he, hf⟩ := Compiled.mapperStep_of_not_maps (i := i + 1) hk hm
      refine ⟨helement.trans he, ?_, exists_resource_of_contains
        (map_eq_of_forall₂ hcopies fun _ _ h => h.1)
        (map_eq_of_forall₂ hdocuments fun _ _ h => h.1) hs hm⟩
      rw [hafter, Compiled.addTo, hf]
      rfl
  · intro i j hij
    rw [← Mapper.filePath_eq, ← Mapper.filePath_eq] at hij
    exact Nat.succ.inj (Mapper.filePath_injective hij)

theorem mappings_mappedTwice :
    ∃ files, ((Compiler.ofSettings { templates := { resources := collidingResources } }).generate
        ⟨Shipped.install FileTree.empty, []⟩ mappedTwice).1 = .ok files ∧
      files.get? s!"src/main/resources/mapping-step-{0 + 1}.json" = some "first".toUTF8 ∧
      files.get? s!"src/main/resources/mapping-step-{3 + 1}.json" = some "second".toUTF8 := by
  obtain ⟨files, h⟩ := exists_generate_mappedTwice
  obtain ⟨flow, t, -, -, -, hlength, -, hmappings, -⟩ := generate_mappings rfl h
  change t.length = 4 at hlength
  obtain ⟨-, -, first⟩ := (hmappings 0 _ t[0] rfl (List.getElem?_eq_getElem _) rfl).1 "first"
    ⟨rfl, by decide, by decide⟩
  obtain ⟨-, -, last⟩ := (hmappings 3 _ t[3] rfl (List.getElem?_eq_getElem _) rfl).1 "second"
    ⟨rfl, by decide, by decide⟩
  exact ⟨files, h, first, last⟩

end RouteCompiler
