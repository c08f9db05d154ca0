import RouteCompiler.Proofs.Files.Outline
import RouteCompiler.Proofs.Project.Paths

/-!
What the files a build makes itself hold once the project is written. A resource may lead to the
same place with another spelling of the path. The one of them that is last in the order of the
spellings stands there, so the file holds what the build made if its own spelling is last.
-/

namespace RouteCompiler

open List (Forall₂)
open Project Template

/-- What the build makes of a request under a path. -/
inductive Project.Makes (c : Compiler) (src : Sources) (r : FlowRequest) :
    String → ByteArray → Prop
  | descriptor {text : String} (h : (c.descriptor src r.integration).1 = .ok text) :
      Makes c src r descriptorPath text.toUTF8
  | route {flow : Flow} {w : Workspace}
      (h : (generateFlow c.registry c.settings r).runOn {} = (.ok flow, w)) :
      Makes c src r flowPath flow.render.toUTF8
  | document {f : String × String} {text : String} (hf : f ∈ requestFiles)
      (h : src.HasText c.templates f.2 (requestScope r) text) : Makes c src r f.1 text.toUTF8
  | mapping {i : Nat} {s : Step} {m : String} (hs : r.integration.steps[i]? = some s)
      (hm : s.Maps m) : Makes c src r (Mapper.filePath (i + 1)) m.toUTF8

theorem Sources.HasText.unique {src : Sources} {l : Library} {name text text' : String}
    {scope : Scope} (h : src.HasText l name scope text) (h' : src.HasText l name scope text') :
    text = text' := by
  obtain ⟨cs, hcs, rfl⟩ := h
  obtain ⟨cs', hcs', rfl⟩ := h'
  rw [hcs] at hcs'
  rw [Except.ok.inj hcs']

section
variable {c : Compiler} {src : Sources} {r : FlowRequest} {files : Artifacts} {path : String}
  {content : ByteArray}

theorem Project.Makes.mem_ownPaths (h : Makes c src r path content) :
    path ∈ ownPaths r.integration.steps := by
  cases h with
  | descriptor => exact List.mem_append_left _ (by simp [generatedPaths])
  | route => exact List.mem_append_left _ (by simp [generatedPaths])
  | document hf =>
    exact List.mem_append_left _ (requestPaths_subset _ (List.mem_map_of_mem hf)).1
  | @mapping i s m hs hm =>
    have he : (Mapper.filePath (i + 1), m.toUTF8) ∈ mappingFiles r.integration.steps :=
      mem_mappingFiles_iff.2 ⟨i, s, m, hs, hm, rfl⟩
    exact List.mem_append_right _ (List.mem_map_of_mem he)

/-- A project has under its own paths what the build makes. -/
theorem get?_of_makes (hr : c.registry = Registry.builtin) (h : (c.generate src r).1 = .ok files)
    (hm : Makes c src r path content) : files.get? path = some content := by
  obtain ⟨copies, documents, flow, pom, -, hdocuments, ⟨w, hflow⟩, hpom, rfl⟩ :=
    generate_eq_assemble hr h
  cases hm with
  | descriptor hpom' =>
    obtain rfl : pom = _ := Except.ok.inj (hpom.symm.trans hpom')
    exact get?_assemble_closing (e := (descriptorPath, _)) (by simp)
  | route hflow' =>
    rw [hflow] at hflow'
    cases hflow'
    exact get?_assemble_closing (e := (flowPath, _)) (by simp)
  | document hf htext =>
    obtain ⟨⟨p, b⟩, he, rfl, text', htext', rfl⟩ := exists_mem_of_forall₂ hdocuments hf
    rw [htext.unique htext']
    exact get?_assemble_document (map_eq_of_forall₂ hdocuments fun _ _ h => h.1) he
  | mapping hs hm => exact get?_assemble_mapping (mem_mappingFiles_iff.2 ⟨_, _, _, hs, hm, rfl⟩)

theorem exists_makes (hr : c.registry = Registry.builtin) (h : (c.generate src r).1 = .ok files)
    (hp : path ∈ ownPaths r.integration.steps) : ∃ content, Makes c src r path content := by
  obtain ⟨copies, documents, flow, pom, -, hdocuments, ⟨w, hflow⟩, hpom, -⟩ :=
    generate_eq_assemble hr h
  have hdocument : ∀ f ∈ requestFiles, ∃ content, Makes c src r f.1 content := by
    intro f hf
    obtain ⟨e, -, -, text, htext, -⟩ := exists_mem_of_forall₂ hdocuments hf
    exact ⟨_, .document hf htext⟩
  obtain hp | hp := List.mem_append.1 hp
  · simp only [generatedPaths, List.mem_cons, List.not_mem_nil, or_false] at hp
    obtain rfl | rfl | rfl | rfl | rfl := hp
    · exact hdocument (readmePath, "README.md.jinja") (by simp [requestFiles])
    · exact hdocument (applicationPath, "Application.java.jinja") (by simp [requestFiles])
    · exact hdocument (propertiesPath, "application.properties.jinja") (by simp [requestFiles])
    · exact ⟨_, .route hflow⟩
    · exact ⟨_, .descriptor hpom⟩
  · obtain ⟨e, he, rfl⟩ := List.mem_map.1 hp
    obtain ⟨i, s, m, hs, hm, rfl⟩ := mem_mappingFiles_iff.1 he
    exact ⟨_, .mapping hs hm⟩

end

theorem FileTree.eq_of_read_of_goal_eq {t : FileTree} {cwd : Location} {p q : Path}
    {a b : ByteArray} (hp : t.read cwd p = .ok a) (hq : t.read cwd q = .ok b)
    (h : p.goal cwd = q.goal cwd) : a = b := by
  obtain ⟨l, hl, hn⟩ := stat_eq_ok_iff.1 (read_eq_ok_iff.1 hp)
  obtain ⟨l', hl', hn'⟩ := stat_eq_ok_iff.1 (read_eq_ok_iff.1 hq)
  rw [locate_eq_goal hl, h, ← locate_eq_goal hl', hn'] at hn
  cases hn
  rfl

section
variable {c : Compiler} {src : Sources} {r : FlowRequest} {files : Artifacts} {path : String}
  {content : ByteArray} {cwd : Location} {t : FileTree} {out : Path}

/-- Among what leads to a path of the build's own there is no other such path. -/
theorem eq_or_exists_resource_of_target_eq (hr : c.registry = Registry.builtin)
    (h : (c.generate src r).1 = .ok files) (hm : Makes c src r path content) {q : String}
    (hq : q ∈ files.keys) (htarget : target cwd out q = target cwd out path) :
    q = path ∨ ∃ res ∈ c.settings.templates.resources, res.destination = q := by
  obtain hown | hres := mem_keys_of_generate hr h hq
  · exact .inl ((plain_of_mem_ownPaths hown).target_injective
      (plain_of_mem_ownPaths hm.mem_ownPaths) htarget)
  · exact .inr hres

theorem read_of_makes (hr : c.registry = Registry.builtin) (h : (c.generate src r).1 = .ok files)
    (hw : (writeArtifacts cwd t out files).1 = .ok ()) (hm : Makes c src r path content)
    (hle : ∀ res ∈ c.settings.templates.resources,
      target cwd out res.destination = target cwd out path → res.destination ≤ path) :
    (writeArtifacts cwd t out files).2.2.read cwd (out.join (Path.ofString path)) =
      .ok content := by
  refine (written_of_writeArtifacts hw).file path content (get?_of_makes hr h hm) ?_
  intro q hq htarget
  obtain rfl | ⟨res, hres, rfl⟩ := eq_or_exists_resource_of_target_eq hr h hm hq htarget
  · exact String.le_refl _
  · exact hle res hres htarget

theorem read_of_resource (hr : c.registry = Registry.builtin) (h : (c.generate src r).1 = .ok files)
    (hw : (writeArtifacts cwd t out files).1 = .ok ()) (hm : Makes c src r path content)
    (before : List Resource) {after : List Resource} {res : Resource}
    (hres : c.settings.templates.resources = before ++ res :: after)
    (hlast : ∀ q ∈ after, q.destination ≠ res.destination)
    (htarget : target cwd out res.destination = target cwd out path) (hlt : path < res.destination)
    (hle : ∀ q ∈ c.settings.templates.resources,
      target cwd out q.destination = target cwd out path → q.destination ≤ res.destination) :
    ∃ b, c.templates.readResource src.tree src.cwd res.source = .ok b ∧
      (writeArtifacts cwd t out files).2.2.read cwd (out.join (Path.ofString path)) = .ok b := by
  have hown : res.destination ∉ ownPaths r.integration.steps := by
    intro hown
    have heq := (plain_of_mem_ownPaths hown).target_injective
      (plain_of_mem_ownPaths hm.mem_ownPaths) htarget
    rw [heq] at hlt
    exact String.lt_irrefl _ hlt
  obtain ⟨b, hsource, hget⟩ := get?_of_resource hr h hres hlast hown
  have hread : (writeArtifacts cwd t out files).2.2.read cwd
      (out.join (Path.ofString res.destination)) = .ok b := by
    refine (written_of_writeArtifacts hw).file _ b hget fun q hq hq' => ?_
    obtain rfl | ⟨res', hres', rfl⟩ :=
      eq_or_exists_resource_of_target_eq hr h hm hq (hq'.trans htarget)
    · exact String.not_lt.1 (String.lt_asymm hlt)
    · exact hle res' hres' (hq'.trans htarget)
  have hpath : path ∈ files.keys :=
    List.mem_map_of_mem (OrderedMap.mem_entries_of_get? (get?_of_makes hr h hm))
  obtain ⟨b', hread'⟩ := exists_read_of_writeArtifacts hw hpath
  obtain rfl := FileTree.eq_of_read_of_goal_eq hread' hread htarget.symm
  exact ⟨b', hsource, hread'⟩

end

/-- In a project that is compiled and written, every path the build makes a file for holds what the
build made, if each resource that leads there has a spelling up to the path's own in order. If a
later spelling leads there, the file holds the resource with the last one, and of several with the
same spelling the last in the list. -/
theorem read_of_generate_of_writeArtifacts {c : Compiler} {src : Sources} {r : FlowRequest}
    {files : Artifacts} {cwd : Location} {t : FileTree} {out : Path}
    (hr : c.registry = Registry.builtin) (h : (c.generate src r).1 = .ok files)
    (hw : (writeArtifacts cwd t out files).1 = .ok ()) :
    (∀ path ∈ ownPaths r.integration.steps, ∃ content, Makes c src r path content) ∧
    ∀ path content, Makes c src r path content →
      ((∀ res ∈ c.settings.templates.resources,
          target cwd out res.destination = target cwd out path → res.destination ≤ path) →
        (writeArtifacts cwd t out files).2.2.read cwd (out.join (Path.ofString path)) =
          .ok content) ∧
      ∀ before res after, c.settings.templates.resources = before ++ res :: after →
        (∀ q ∈ after, q.destination ≠ res.destination) →
        target cwd out res.destination = target cwd out path → path < res.destination →
        (∀ q ∈ c.settings.templates.resources,
          target cwd out q.destination = target cwd out path → q.destination ≤ res.destination) →
        ∃ b, c.templates.readResource src.tree src.cwd res.source = .ok b ∧
          (writeArtifacts cwd t out files).2.2.read cwd (out.join (Path.ofString path)) =
            .ok b := by
  refine ⟨fun path hp => exists_makes hr h hp, fun path content hm => ⟨?_, ?_⟩⟩
  · exact read_of_makes hr h hw hm
  · intro before res after hres hlast htarget hlt hle
    exact read_of_resource hr h hw hm _ hres hlast htarget hlt hle

/-- A compiler with two resources that lead to documents of the build under other spellings, one of
them before and one behind that of the document. -/
def respellingCompiler : Compiler :=
  .ofSettings
    { templates :=
        { resources :=
            [ ⟨"pom.xml.jinja", "./README.md"⟩,
              ⟨"README.md.jinja", "src/main/resources/mapping-step-1.json/."⟩ ] } }

def shippedSources : Sources := ⟨Shipped.install FileTree.empty, []⟩

theorem exists_written_respelled :
    ∃ files, (respellingCompiler.generate shippedSources mappedTwice).1 = .ok files ∧
      (writeArtifacts [] FileTree.empty ⟨"", ["out"]⟩ files).1 = .ok () := by
  have hres : ∀ res ∈ respellingCompiler.settings.templates.resources,
      ∃ f ∈ Shipped.files, res.source = f.1 := by
    simp [respellingCompiler, Compiler.ofSettings, Shipped.files]
  obtain ⟨files, h⟩ := exists_generate_installed FileTree.empty [] hres not_fails_mappedTwice
  refine ⟨files, h, ?_⟩
  rw [fst_writeArtifacts, keys_of_generate rfl h]
  decide +kernel

theorem makes_mappedTwice {c : Compiler} {src : Sources} :
    Makes c src mappedTwice (Mapper.filePath 1) "first".toUTF8 :=
  .mapping (i := 0) rfl ⟨rfl, by decide, by decide⟩

/-- The readme is as the build made it, and in the place of the first mapping is a resource. -/
theorem read_respelled :
    ∃ files readme b, (respellingCompiler.generate shippedSources mappedTwice).1 = .ok files ∧
      Makes respellingCompiler shippedSources mappedTwice readmePath readme ∧
      (writeArtifacts [] FileTree.empty ⟨"", ["out"]⟩ files).2.2.read []
        (Path.join ⟨"", ["out"]⟩ (Path.ofString readmePath)) = .ok readme ∧
      respellingCompiler.templates.readResource shippedSources.tree [] "README.md.jinja" = .ok b ∧
      (writeArtifacts [] FileTree.empty ⟨"", ["out"]⟩ files).2.2.read []
        (Path.join ⟨"", ["out"]⟩ (Path.ofString (Mapper.filePath 1))) = .ok b := by
  obtain ⟨files, h, hw⟩ := exists_written_respelled
  obtain ⟨hmakes, hread⟩ := read_of_generate_of_writeArtifacts rfl h hw
  obtain ⟨readme, hreadme⟩ := hmakes readmePath (List.mem_append_left _ (by simp [generatedPaths]))
  obtain ⟨b, hb, hb'⟩ := (hread _ _ makes_mappedTwice).2 [_] _ [] rfl (by simp)
    (by decide +kernel) (by decide +kernel) (by decide +kernel)
  exact ⟨files, readme, b, h, hreadme, (hread _ _ hreadme).1 (by decide +kernel), hb, hb'⟩

/-- The mapping of the first step is not in the file that the build makes for it. -/
theorem read_respelled_ne :
    ∃ files, (respellingCompiler.generate shippedSources mappedTwice).1 = .ok files ∧
      (writeArtifacts [] FileTree.empty ⟨"", ["out"]⟩ files).1 = .ok () ∧
      Makes respellingCompiler shippedSources mappedTwice (Mapper.filePath 1) "first".toUTF8 ∧
      (writeArtifacts [] FileTree.empty ⟨"", ["out"]⟩ files).2.2.read []
        (Path.join ⟨"", ["out"]⟩ (Path.ofString (Mapper.filePath 1))) ≠ .ok "first".toUTF8 := by
  obtain ⟨files, h, hw⟩ := exists_written_respelled
  obtain ⟨b, hb, hread⟩ := read_of_resource rfl h hw makes_mappedTwice [_] rfl (by simp)
    (by decide +kernel) (by decide +kernel) (by decide +kernel)
  refine ⟨files, h, hw, makes_mappedTwice, ?_⟩
  have hsource :
      respellingCompiler.templates.readResource shippedSources.tree [] "README.md.jinja" =
        .ok (Shipped.textOf Shipped.readmeLines).toUTF8 :=
    Library.readResource_install (s := respellingCompiler.settings.templates) rfl rfl
      (List.mem_cons_self (a := ("README.md.jinja", Shipped.textOf Shipped.readmeLines)))
  obtain rfl := Except.ok.inj (hb.symm.trans hsource)
  rw [hread]
  intro heq
  exact absurd (String.toByteArray_inj.1 (Except.ok.inj heq)) (by decide +kernel)

end RouteCompiler
