import RouteCompiler.Proofs.Files.Growth
import RouteCompiler.Proofs.Template.Documents

/-!
Libraries that serve the shipped templates. Whatever is read from such a library, it goes on
serving them: a template that was read is kept with the file it came from, and the others are
looked up as before.
-/

namespace RouteCompiler.Template
namespace Library

open Documents (Renders)

variable {l l' : Library} {t : FileTree} {cwd : Location} {name : String} {x : LoadedTemplate}

/-! ## Reading a template -/

theorem mapError_ok {α ε ε' : Type} (f : ε → ε') (a : α) :
    (Except.ok a : Except ε α).mapError f = .ok a := rfl

theorem mapError_eq_ok_iff {α ε ε' : Type} {x : Except ε α} {f : ε → ε'} {a : α} :
    x.mapError f = .ok a ↔ x = .ok a := by
  cases x <;> simp [Except.mapError]

/-- A template is kept as long as its file has what it was read from. -/
theorem current?_eq_some_iff : l.current? t cwd name = some x ↔
    l.loaded.get? name = some x ∧ t.read cwd x.path = .ok x.content := by
  rw [current?, Option.filter_eq_some_iff, FileTree.read_eq_ok_iff]
  refine and_congr_right fun _ => ?_
  cases t.stat cwd x.path <;> simp

theorem load_of_current (h : l.current? t cwd name = some x) :
    l.load t cwd name = .ok (x, l) := by
  simp only [load, h]

theorem load_of_read (hc : l.current? t cwd name = none) (hf : l.find? t cwd name = some x.path)
    (hr : t.read cwd x.path = .ok x.content) (hp : parse x.content = .ok x.nodes) :
    l.load t cwd name = .ok (x, { l with loaded := l.loaded.insert name x }) := by
  simp only [load, hc, hf, hr, bind, Except.bind, mapError_ok, hp]
  rfl

/-- A template comes from the store, or from its file and then goes into the store. -/
theorem load_cases (h : l.load t cwd name = .ok (x, l')) :
    (l.current? t cwd name = some x ∧ l' = l) ∨
      (l.current? t cwd name = none ∧ l.find? t cwd name = some x.path ∧
        t.read cwd x.path = .ok x.content ∧ parse x.content = .ok x.nodes ∧
        l' = { l with loaded := l.loaded.insert name x }) := by
  cases hc : l.current? t cwd name with
  | some y =>
    rw [load_of_current hc] at h
    cases h
    exact .inl ⟨rfl, rfl⟩
  | none =>
    simp only [load, hc] at h
    cases hf : l.find? t cwd name with
    | none =>
      rw [hf] at h
      cases h
    | some p =>
      simp only [hf] at h
      cases hr : t.read cwd p with
      | error e =>
        rw [hr] at h
        cases h
      | ok content =>
        simp only [hr, bind, Except.bind, mapError_ok] at h
        cases hp : parse content with
        | error b =>
          rw [hp] at h
          cases h
        | ok nodes =>
          rw [hp] at h
          cases h
          exact .inr ⟨rfl, rfl, hr, hp, rfl⟩

theorem load_again (h : l.load t cwd name = .ok (x, l')) : l'.load t cwd name = .ok (x, l') := by
  obtain ⟨-, rfl⟩ | ⟨-, -, hr, -, rfl⟩ := load_cases h
  · exact h
  · refine load_of_current (current?_eq_some_iff.2 ⟨?_, hr⟩)
    rw [OrderedMap.get?_insert, if_pos rfl]

/-- Reading a template does not change what the other names stand for. -/
theorem load_other {other : String} {y : LoadedTemplate} {k : Library} (hn : other ≠ name)
    (h : l.load t cwd name = .ok (x, l')) (hy : l.load t cwd other = .ok (y, k)) :
    ∃ k', l'.load t cwd other = .ok (y, k') := by
  obtain ⟨-, rfl⟩ | ⟨-, -, -, -, rfl⟩ := load_cases h
  · exact ⟨k, hy⟩
  have hc : ({ l with loaded := l.loaded.insert name x } : Library).current? t cwd other =
      l.current? t cwd other := by
    simp only [current?, OrderedMap.get?_insert, if_neg hn.symm]
  obtain ⟨hs, -⟩ | ⟨hs, hf, hr, hp, -⟩ := load_cases hy
  · exact ⟨_, load_of_current (hc.trans hs)⟩
  · exact ⟨_, load_of_read (hc.trans hs) hf hr hp⟩

/-! ## Rendering again -/

/-- Reading a template changes nothing about the templates that are read afterwards. -/
theorem map_fst_load (h : l.load t cwd name = .ok (x, l')) (other : String) :
    (l'.load t cwd other).map Prod.fst = (l.load t cwd other).map Prod.fst := by
  by_cases hn : other = name
  · rw [hn, load_again h, h]
  obtain ⟨-, rfl⟩ | ⟨-, -, -, -, rfl⟩ := load_cases h
  · rfl
  have hc : ({ l with loaded := l.loaded.insert name x } : Library).current? t cwd other =
      l.current? t cwd other := by
    simp only [current?, OrderedMap.get?_insert, if_neg (Ne.symm hn)]
  have hf : ({ l with loaded := l.loaded.insert name x } : Library).find? t cwd other =
      l.find? t cwd other := rfl
  simp only [load, hc, hf]
  cases l.current? t cwd other with
  | some y => rfl
  | none =>
    cases l.find? t cwd other with
    | none => rfl
    | some p =>
      dsimp only
      cases t.read cwd p with
      | error e => rfl
      | ok content =>
        dsimp only [bind, Except.bind, mapError_ok]
        cases parse content <;> rfl

theorem fst_render (scope : Scope) : (l.render t cwd name scope).1 =
    ((l.load t cwd name).map Prod.fst).bind fun x =>
      (renderAll (isSafe name) scope x.nodes).mapError .breakdown := by
  rw [render]
  cases l.load t cwd name with
  | error e => rfl
  | ok p => rfl

theorem log_render (scope : Scope) : (l.render t cwd name scope).2.1 =
    ((l.load t cwd name).map Prod.fst).toOption.elim [] fun x => [rendering name x.path] := by
  rw [render]
  cases l.load t cwd name with
  | error e => rfl
  | ok p => rfl

/-- What was rendered before has no influence on a text. -/
theorem fst_render_render (other : String) (scope scope' : Scope) :
    ((l.render t cwd name scope).2.2.render t cwd other scope').1 =
      (l.render t cwd other scope').1 := by
  rw [fst_render, fst_render]
  refine congrArg (Except.bind · _) ?_
  cases h : l.load t cwd name with
  | error e => simp only [render, h]
  | ok p => simpa only [render, h] using map_fst_load h other

/-! ## Libraries alike -/

/-- The libraries look in the same places, and every template that is read now is the same. -/
structure Alike (t : FileTree) (cwd : Location) (l l' : Library) : Prop where
  root : l.root = l'.root
  overridePath : l.overridePath = l'.overridePath
  load : ∀ name, (l.load t cwd name).map Prod.fst = (l'.load t cwd name).map Prod.fst

namespace Alike

theorem refl (l : Library) : Alike t cwd l l := ⟨rfl, rfl, fun _ => rfl⟩

theorem symm (h : Alike t cwd l l') : Alike t cwd l' l :=
  ⟨h.root.symm, h.overridePath.symm, fun name => (h.load name).symm⟩

theorem trans {k : Library} (h : Alike t cwd l l') (h' : Alike t cwd l' k) : Alike t cwd l k :=
  ⟨h.root.trans h'.root, h.overridePath.trans h'.overridePath,
    fun name => (h.load name).trans (h'.load name)⟩

theorem text_eq (h : Alike t cwd l l') (name : String) (scope : Scope) :
    (l.render t cwd name scope).1 = (l'.render t cwd name scope).1 := by
  rw [fst_render, fst_render, h.load]

theorem log_eq (h : Alike t cwd l l') (name : String) (scope : Scope) :
    (l.render t cwd name scope).2.1 = (l'.render t cwd name scope).2.1 := by
  rw [log_render, log_render, h.load]

theorem readResource_eq (h : Alike t cwd l l') (name : String) :
    l.readResource t cwd name = l'.readResource t cwd name := by
  simp only [readResource, resolve, searchPath, absent, h.root, h.overridePath]

end Alike

/-- Rendering leaves the library as it was, but for what it read. -/
theorem alike_render (l : Library) (name : String) (scope : Scope) :
    Alike t cwd l (l.render t cwd name scope).2.2 := by
  rw [render]
  cases h : l.load t cwd name with
  | error e => exact .refl l
  | ok p =>
    refine ⟨?_, ?_, fun other => (map_fst_load h other).symm⟩
    · obtain ⟨-, hp⟩ | ⟨-, -, -, -, hp⟩ := load_cases h <;> rw [hp]
    · obtain ⟨-, hp⟩ | ⟨-, -, -, -, hp⟩ := load_cases h <;> rw [hp]

/-! ## Serving the shipped templates -/

/-- Under the name of each shipped template the library has what the shipped file says. -/
def ServesShipped (l : Library) (t : FileTree) (cwd : Location) : Prop :=
  ∀ f ∈ Shipped.files, ∃ x l', l.load t cwd f.1 = .ok (x, l') ∧ parse f.2.toUTF8 = .ok x.nodes

theorem ServesShipped.load (hl : l.ServesShipped t cwd) (h : l.load t cwd name = .ok (x, l')) :
    l'.ServesShipped t cwd := by
  intro f hf
  obtain ⟨y, k, hy, hp⟩ := hl f hf
  by_cases hn : f.1 = name
  · rw [hn, h] at hy
    cases hy
    exact ⟨x, l', hn ▸ load_again h, hp⟩
  · obtain ⟨k', hk⟩ := load_other hn h hy
    exact ⟨y, k', hk, hp⟩

/-- Only the text depends on the scope: a shipped template leads to the same record and the same
library whatever it is rendered for. -/
theorem ServesShipped.render (hl : l.ServesShipped t cwd) {text : String} {nodes : List Node}
    (hf : (name, text) ∈ Shipped.files) (hp : parse text.toUTF8 = .ok nodes)
    (hs : isSafe name = false) :
    ∃ (entry : LogRecord) (l' : Library), l'.ServesShipped t cwd ∧
      ∀ scope content, Renders false scope nodes content →
        l.render t cwd name scope = (.ok content, [entry], l') := by
  obtain ⟨x, l', hx, hn⟩ := hl _ hf
  rw [hp] at hn
  cases hn
  refine ⟨rendering name x.path, l', hl.load hx, ?_⟩
  intro scope content h
  simp only [Library.render, hx, hs]
  rw [show renderAll false scope x.nodes = .ok content from h, mapError_ok]

/-! ## The templates in their own directory -/

theorem node?_install_directory : (Shipped.install t).node? Shipped.directory.parts =
    some .directory := by
  simp [Shipped.install, Shipped.files, Shipped.directory, FileTree.node?, FileTree.set,
    OrderedMap.get?_insert]

theorem node?_install_file {f : String × String} (hf : f ∈ Shipped.files) :
    (Shipped.install t).node? (Shipped.directory.parts ++ [f.1]) = some (.file f.2.toUTF8) := by
  simp only [Shipped.files, List.mem_cons, List.not_mem_nil, or_false] at hf
  rcases hf with rfl | rfl | rfl | rfl <;>
    simp [Shipped.install, Shipped.files, Shipped.directory, FileTree.node?, FileTree.set,
      OrderedMap.get?_insert]

theorem stat_install {f : String × String} (hf : f ∈ Shipped.files) :
    (Shipped.install t).stat cwd (Shipped.directory.join ⟨"", [f.1]⟩) =
      .ok (.file f.2.toUTF8) := by
  have hd := node?_install_directory (t := t)
  have hn := node?_install_file (t := t) hf
  have hp : f.1 ≠ ".." := by
    simp only [Shipped.files, List.mem_cons, List.not_mem_nil, or_false] at hf
    rcases hf with rfl | rfl | rfl | rfl <;> simp
  have hl : (Shipped.install t).locate cwd (Shipped.directory.join ⟨"", [f.1]⟩) =
      .ok (Shipped.directory.parts ++ [f.1]) := by
    have h₁ : (Shipped.install t).step [] "<TEMPLATES>" = .ok ["<TEMPLATES>"] := by
      simp [FileTree.step, FileTree.node?]
    have h₂ : (Shipped.install t).step ["<TEMPLATES>"] f.1 = .ok ["<TEMPLATES>", f.1] := by
      rw [FileTree.step, show (["<TEMPLATES>"] : Location) = Shipped.directory.parts from rfl, hd]
      simp [hp, Shipped.directory]
    simp only [FileTree.locate, Shipped.directory, Path.join, Path.isAbsolute]
    simp [bind, Except.bind, h₁, h₂, pure, Except.pure]
  rw [FileTree.stat, hl]
  simp only [bind, Except.bind, hn]

/-- Without directories of its own a library looks where the shipped templates are installed. -/
theorem searchPath_ofSettings {s : TemplateSettings} (hr : said s.root = none)
    (ho : said s.overridePath = none) : (ofSettings s).searchPath = [Shipped.directory] := by
  rw [searchPath, ofSettings]
  simp only [said] at hr ho
  rw [hr, ho]

/-- So it finds the shipped templates. -/
theorem servesShipped_ofSettings {s : TemplateSettings} (hr : said s.root = none)
    (ho : said s.overridePath = none) :
    (ofSettings s).ServesShipped (Shipped.install t) cwd := by
  intro f hf
  have hs : (Shipped.install t).stat cwd _ = _ := stat_install hf
  obtain ⟨nodes, hn⟩ : ∃ nodes, parse f.2.toUTF8 = .ok nodes := by
    simp only [Shipped.files, List.mem_cons, List.not_mem_nil, or_false] at hf
    obtain rfl | rfl | rfl | rfl := hf
    · exact ⟨_, Shipped.parse_readme⟩
    · exact ⟨_, Shipped.parse_application⟩
    · exact ⟨_, Shipped.parse_properties⟩
    · exact ⟨_, Shipped.parse_descriptor⟩
  have hg : segments? f.1 = some [f.1] := by
    simp only [Shipped.files, List.mem_cons, List.not_mem_nil, or_false] at hf
    rcases hf with rfl | rfl | rfl | rfl <;> decide
  have hf' : (ofSettings s).find? (Shipped.install t) cwd f.1 =
      some (Shipped.directory.join ⟨"", [f.1]⟩) := by
    simp [find?, hg, searchPath_ofSettings hr ho, FileTree.isFile, hs]
  refine ⟨⟨Shipped.directory.join ⟨"", [f.1]⟩, f.2.toUTF8, nodes⟩, _,
    load_of_read rfl hf' ?_ hn, hn⟩
  simp only [FileTree.read, hs, bind, Except.bind]

/-- The files of the templates can be copied like any resource. -/
theorem readResource_install {s : TemplateSettings} (hr : said s.root = none)
    (ho : said s.overridePath = none) {f : String × String} (hf : f ∈ Shipped.files) :
    (ofSettings s).readResource (Shipped.install t) cwd f.1 = .ok f.2.toUTF8 := by
  have hs : (Shipped.install t).stat cwd _ = _ := stat_install hf
  have hg : Path.ofString f.1 = ⟨"", [f.1]⟩ := by
    simp only [Shipped.files, List.mem_cons, List.not_mem_nil, or_false] at hf
    rcases hf with rfl | rfl | rfl | rfl <;> decide
  simp [readResource, resolve, searchPath_ofSettings hr ho, hg, FileTree.isFile, FileTree.read, hs,
    mapError_ok, bind, Except.bind]

end Library
end RouteCompiler.Template
