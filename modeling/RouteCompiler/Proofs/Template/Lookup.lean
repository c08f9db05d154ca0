import RouteCompiler.Proofs.Compile
import RouteCompiler.Proofs.Template.Serving
import RouteCompiler.Template.Session

/-!
Where the text of a template comes from, over any run of renderings and changes of the files.
Templates and resources are looked up alike: rendering fails for want of a file exactly where
looking the name up as a resource does. The text is always what its file says at that moment; but a
template that was rendered before is not looked up again as long as its own file stays the same,
and then a file that appeared meanwhile in a directory searched before does not count.
-/

namespace RouteCompiler.Template

/-- The name stays within the directories of a library. -/
structure IsInward (name : String) : Prop where
  relative : (Path.ofString name).isAbsolute = false
  downward : ".." ∉ (Path.ofString name).parts

namespace Library

variable {l : Library} {t : FileTree} {cwd : Location} {name : String} {x : LoadedTemplate}
  {p : Path}

/-! ## Looking a name up -/

/-- The files that a name may stand for, those that count first in front. -/
def places (l : Library) (name : String) : List Path :=
  l.searchPath.map fun d => d.join (Path.ofString name)

theorem resolve_eq_ok_iff :
    l.resolve t cwd name = .ok p ↔ (l.places name).find? (t.isFile cwd) = some p := by
  rw [resolve, ← places]
  cases (l.places name).find? (t.isFile cwd) <;> simp

theorem resolve_eq_error_iff {e : CompileError} :
    l.resolve t cwd name = .error e ↔
      (l.places name).find? (t.isFile cwd) = none ∧ e = l.absent name := by
  rw [resolve, ← places]
  cases (l.places name).find? (t.isFile cwd) <;> simp [eq_comm]

theorem find?_eq (h : IsInward name) :
    l.find? t cwd name = (l.places name).find? (t.isFile cwd) := by
  have hroot : (Path.ofString name).root = "" := by
    simpa [Path.isAbsolute] using h.relative
  have hsegments : segments? name = some (Path.ofString name).parts := by
    have hparts : Path.segments name.toList = (Path.ofString name).parts := rfl
    simp [segments?, hparts, h.downward]
  have hpath : (⟨"", (Path.ofString name).parts⟩ : Path) = Path.ofString name :=
    (Path.mk.injEq ..).mpr ⟨hroot.symm, rfl⟩
  simp only [find?, hsegments, bind, Option.bind, places, hpath]

theorem isFile_iff : t.isFile cwd p = true ↔ ∃ content, t.read cwd p = .ok content := by
  rw [FileTree.isFile, FileTree.read]
  cases t.stat cwd p with
  | error e => simp [bind, Except.bind]
  | ok n => cases n <;> simp [bind, Except.bind]

/-! ## Rendering -/

/-- The text that the content of a template's file makes. -/
def textFrom (name : String) (scope : Scope) (content : ByteArray) : Except Failure (List Char) :=
  ((parse content).bind (renderAll (isSafe name) scope)).mapError .breakdown

theorem textFrom_ne_compile (scope : Scope) (content : ByteArray) (e : CompileError) :
    textFrom name scope content ≠ .error (.compile e) := by
  rw [textFrom]
  cases (parse content).bind (renderAll (isSafe name) scope) <;> exact nofun

/-- A template that is kept is rendered from what it was read from. -/
theorem render_of_current (hc : l.current? t cwd name = some x)
    (hp : parse x.content = .ok x.nodes) (scope : Scope) :
    (l.render t cwd name scope).1 = textFrom name scope x.content := by
  rw [fst_render, load_of_current hc, textFrom, hp]
  rfl

/-- Any other template is rendered from the file that is found. -/
theorem render_of_found {content : ByteArray} (hc : l.current? t cwd name = none)
    (hf : l.find? t cwd name = some p) (hr : t.read cwd p = .ok content) (scope : Scope) :
    (l.render t cwd name scope).1 = textFrom name scope content := by
  rw [fst_render, textFrom]
  cases hp : parse content with
  | error b =>
    simp only [load, hc, hf, hr, bind, Except.bind, mapError_ok, hp]
    rfl
  | ok nodes =>
    rw [load_of_read (x := ⟨p, content, nodes⟩) hc hf hr hp]
    rfl

theorem render_of_absent (hc : l.current? t cwd name = none) (hf : l.find? t cwd name = none)
    (scope : Scope) : (l.render t cwd name scope).1 = .error (.compile (l.absent name)) := by
  rw [fst_render, load, hc]
  simp only [hf]
  rfl

/-- What is rendered from a file does not fail for want of one, and neither does its lookup. -/
theorem error_iff_of_textFrom {scope : Scope} {content : ByteArray}
    (hrender : (l.render t cwd name scope).1 = textFrom name scope content)
    (hresolve : l.resolve t cwd name = .ok p) (e : CompileError) :
    (l.render t cwd name scope).1 = .error (.compile e) ↔ l.resolve t cwd name = .error e := by
  rw [hrender, hresolve]
  exact ⟨fun he => absurd he (textFrom_ne_compile scope content e), nofun⟩

/-- Rendering may add the template that it read, and does nothing else to the library. -/
theorem render_library (l : Library) (t : FileTree) (cwd : Location) (name : String)
    (scope : Scope) :
    (l.render t cwd name scope).2.2 = l ∨
      ∃ x : LoadedTemplate, l.find? t cwd name = some x.path ∧ t.read cwd x.path = .ok x.content ∧
        parse x.content = .ok x.nodes ∧
        (l.render t cwd name scope).2.2 = { l with loaded := l.loaded.insert name x } := by
  cases h : l.load t cwd name with
  | error e => exact .inl (by rw [render, h])
  | ok r =>
    obtain ⟨x, l'⟩ := r
    have hl : (l.render t cwd name scope).2.2 = l' := by rw [render, h]
    obtain ⟨-, rfl⟩ | ⟨-, hf, hr, hp, rfl⟩ := load_cases h
    · exact .inl hl
    · exact .inr ⟨x, hf, hr, hp, hl⟩

end Library

/-! ## Sessions -/

namespace Session

variable {cwd : Location} {first s : Session} {past : List Event} {name : String}
  {x : LoadedTemplate}

/-- At some moment of the events the name was rendered, and this held. -/
def AtRendering (cwd : Location) (first : Session) (events : List Event) (name : String)
    (P : Session → Prop) : Prop :=
  ∃ before scope rest, events = before ++ .render name scope :: rest ∧ P (first.after cwd before)

theorem AtRendering.append {P : Session → Prop} (h : AtRendering cwd first past name P)
    (events : List Event) : AtRendering cwd first (past ++ events) name P := by
  obtain ⟨before, scope, rest, rfl, hP⟩ := h
  exact ⟨before, scope, rest ++ events, by simp, hP⟩

theorem AtRendering.imp {P Q : Session → Prop} (h : AtRendering cwd first past name P)
    (hPQ : ∀ s, P s → Q s) : AtRendering cwd first past name Q := by
  obtain ⟨before, scope, rest, he, hP⟩ := h
  exact ⟨before, scope, rest, he, hPQ _ hP⟩

/-- Every template that is kept was read when its name was rendered, from the file that was found
then. -/
structure Keeps (cwd : Location) (first : Session) (past : List Event) (s : Session) : Prop where
  places : s.library.places = first.library.places
  parsed : ∀ name x, s.library.loaded.get? name = some x →
    Library.parse x.content = .ok x.nodes
  rendered : ∀ name x, s.library.loaded.get? name = some x →
    AtRendering cwd first past name fun s' => s'.library.places = first.library.places ∧
      s'.library.find? s'.tree cwd name = some x.path ∧ s'.tree.read cwd x.path = .ok x.content

theorem Keeps.step (h : Keeps cwd first past (first.after cwd past)) (e : Event) :
    Keeps cwd first (past ++ [e]) (first.after cwd (past ++ [e])) := by
  have hold : ∀ name x, (first.after cwd past).library.loaded.get? name = some x →
      AtRendering cwd first (past ++ [e]) name fun s' =>
        s'.library.places = first.library.places ∧
        s'.library.find? s'.tree cwd name = some x.path ∧
        s'.tree.read cwd x.path = .ok x.content := fun name x hx =>
    (h.rendered name x hx).append [e]
  have hlast : first.after cwd (past ++ [e]) = ((first.after cwd past).step cwd e).2.2 := by
    simp only [after, List.foldl_append, List.foldl_cons, List.foldl_nil]
  rw [hlast]
  cases e with
  | files tree => exact ⟨h.places, h.parsed, hold⟩
  | resolve name | read name => exact ⟨h.places, h.parsed, hold⟩
  | render name scope =>
    obtain hl | ⟨x, hf, hr, hp, hl⟩ := (first.after cwd past).library.render_library
      (first.after cwd past).tree cwd name scope
    · simp only [Session.step, hl]
      exact ⟨h.places, h.parsed, hold⟩
    · simp only [Session.step, hl]
      refine ⟨h.places, fun other y hy => ?_, fun other y hy => ?_⟩
      · rw [OrderedMap.get?_insert] at hy
        split at hy
        · cases hy
          exact hp
        · exact h.parsed other y hy
      · rw [OrderedMap.get?_insert] at hy
        split at hy
        · rename_i hn
          cases hy
          exact ⟨past, scope, [], by rw [hn], h.places, hn ▸ hf, hr⟩
        · exact hold other y hy

theorem keeps_after (past events : List Event)
    (h : Keeps cwd first past (first.after cwd past)) :
    Keeps cwd first (past ++ events) (first.after cwd (past ++ events)) := by
  induction events generalizing past with
  | nil => rwa [List.append_nil]
  | cons e events ih =>
    rw [List.append_cons]
    exact ih (past ++ [e]) (h.step e)

/-- Of two searches through the same places, the first found its place although the second finds
another one earlier: nothing was there at the first search. -/
theorem eq_false_of_find? {α : Type} {places : List α} {there isThere : α → Bool} {p q : α}
    (hq : places.find? there = some q) (hp : places.find? isThere = some p)
    (hthere : isThere q = true) (hne : q ≠ p) : there p = false := by
  obtain ⟨-, before, after, rfl, hnone⟩ := List.find?_eq_some_iff_append.1 hq
  rw [List.find?_append] at hp
  cases hb : before.find? isThere with
  | none => simp [hb, hthere, hne] at hp
  | some p' =>
    simp only [hb, Option.some_or, Option.some.injEq] at hp
    have hmem : p ∈ before := hp ▸ List.mem_of_find?_eq_some hb
    simpa using hnone p hmem

theorem Keeps.mem_places (h : Keeps cwd first past s) (hname : IsInward name)
    (hx : s.library.loaded.get? name = some x) : x.path ∈ s.library.places name := by
  obtain ⟨_, _, _, _, hplaces, hf, _⟩ := h.rendered name x hx
  rw [Library.find?_eq hname, hplaces, ← h.places] at hf
  exact List.mem_of_find?_eq_some hf

/-- Where the lookup finds no file, none is kept that is still there. -/
theorem Keeps.current?_eq_none (h : Keeps cwd first past s) (hname : IsInward name)
    (hf : (s.library.places name).find? (s.tree.isFile cwd) = none) :
    s.library.current? s.tree cwd name = none := by
  refine Option.eq_none_iff_forall_ne_some.2 fun x hc => ?_
  obtain ⟨hloaded, hread⟩ := Library.current?_eq_some_iff.1 hc
  have hthere : s.tree.isFile cwd x.path = true := Library.isFile_iff.2 ⟨_, hread⟩
  exact absurd hthere (List.find?_eq_none.1 hf x.path (h.mem_places hname hloaded))

/-- A kept template stands for the file that is found, unless there was none at its place when the
template was read. -/
theorem Keeps.eq_or_atRendering (h : Keeps cwd first past s) (hname : IsInward name) {p : Path}
    (hc : s.library.current? s.tree cwd name = some x)
    (hp : s.library.resolve s.tree cwd name = .ok p) :
    x.path = p ∨ AtRendering cwd first past name fun s' =>
      s'.library.resolve s'.tree cwd name = .ok x.path ∧
        s'.tree.read cwd x.path = .ok x.content ∧ s'.tree.isFile cwd p = false := by
  obtain ⟨hloaded, hread⟩ := Library.current?_eq_some_iff.1 hc
  have hthere : s.tree.isFile cwd x.path = true := Library.isFile_iff.2 ⟨_, hread⟩
  by_cases hne : x.path = p
  · exact .inl hne
  refine .inr ((h.rendered name x hloaded).imp fun s' ⟨hplaces, hf, hr⟩ => ?_)
  rw [Library.find?_eq hname] at hf
  refine ⟨Library.resolve_eq_ok_iff.2 hf, hr, ?_⟩
  rw [hplaces, ← h.places] at hf
  exact eq_false_of_find? hf (Library.resolve_eq_ok_iff.1 hp) hthere hne

/-- Where the lookup finds a file, the text is made from the content of this file or of the one
that is kept. -/
theorem Keeps.exists_textFrom (h : Keeps cwd first past s) (hname : IsInward name) {p : Path}
    (hp : s.library.resolve s.tree cwd name = .ok p) :
    ∃ q content, s.tree.read cwd q = .ok content ∧
      (∀ scope, (s.library.render s.tree cwd name scope).1 =
        Library.textFrom name scope content) ∧
      (q = p ∨ AtRendering cwd first past name fun s' =>
        s'.library.resolve s'.tree cwd name = .ok q ∧ s'.tree.read cwd q = .ok content ∧
          s'.tree.isFile cwd p = false) := by
  cases hc : s.library.current? s.tree cwd name with
  | some x =>
    obtain ⟨hloaded, hread⟩ := Library.current?_eq_some_iff.1 hc
    have hrender := Library.render_of_current hc (h.parsed name x hloaded)
    exact ⟨x.path, x.content, hread, hrender, h.eq_or_atRendering hname hc hp⟩
  | none =>
    have hf := Library.resolve_eq_ok_iff.1 hp
    obtain ⟨content, hr⟩ := Library.isFile_iff.1 (List.find?_some hf)
    have hrender := Library.render_of_found hc ((Library.find?_eq hname).trans hf) hr
    exact ⟨p, content, hr, hrender, .inl rfl⟩

/-- After any run of events, rendering a name fails for want of a file exactly if looking it up as
a resource fails. Otherwise its text is made from what some file says now. That is the file which
the lookup gives, unless the name was rendered before: from a file that still says the same, at a
moment when there was no file at the place where the lookup finds one now. -/
theorem render_after (settings : TemplateSettings) (tree : FileTree) (events : List Event)
    (hname : IsInward name) :
    let first : Session := ⟨.ofSettings settings, tree⟩
    let s := first.after cwd events
    (∀ scope e, (s.library.render s.tree cwd name scope).1 = .error (.compile e) ↔
      s.library.resolve s.tree cwd name = .error e) ∧
    ∀ p, s.library.resolve s.tree cwd name = .ok p →
      ∃ q content, s.tree.read cwd q = .ok content ∧
        (∀ scope, (s.library.render s.tree cwd name scope).1 =
          Library.textFrom name scope content) ∧
        (q = p ∨ AtRendering cwd first events name fun s' =>
          s'.library.resolve s'.tree cwd name = .ok q ∧ s'.tree.read cwd q = .ok content ∧
            s'.tree.isFile cwd p = false) := by
  intro first s
  have hk : Keeps cwd first events s := by
    have hstart : Keeps cwd first [] (first.after cwd []) := ⟨rfl, nofun, nofun⟩
    exact keeps_after [] events hstart
  refine ⟨fun scope e => ?_, fun p hp => hk.exists_textFrom hname hp⟩
  cases hp : s.library.resolve s.tree cwd name with
  | ok p =>
    obtain ⟨q, content, hr, hrender, hq⟩ := hk.exists_textFrom hname hp
    rw [← hp]
    exact Library.error_iff_of_textFrom (hrender scope) hp e
  | error e' =>
    obtain ⟨hf, rfl⟩ := Library.resolve_eq_error_iff.1 hp
    have hc := hk.current?_eq_none hname hf
    rw [Library.render_of_absent hc ((Library.find?_eq hname).trans hf) scope]
    simp

/-! ## A file that appears in front of another -/

def shadowedSettings : TemplateSettings := ⟨some "/t", some "o", []⟩

def shadowedTree : FileTree :=
  ⟨.ofList [(["t"], .directory), (["t", "a"], .file "old".toUTF8)]⟩

def shadowingTree : FileTree :=
  (shadowedTree.set ["t", "o"] .directory).set ["t", "o", "a"] (.file "new".toUTF8)

def shadowing : List Event := [.render "a" [], .files shadowingTree]

def shadowed : Session := after [] ⟨.ofSettings shadowedSettings, shadowedTree⟩ shadowing

theorem isInward_a : IsInward "a" := ⟨by decide, by decide⟩

theorem render_after_shadowing :
    IsInward "a" ∧ shadowed.library.resolve shadowed.tree [] "a" = .ok ⟨"/", ["t", "o", "a"]⟩ ∧
      ∃ q content, shadowed.tree.read [] q = .ok content ∧
        (∀ scope, (shadowed.library.render shadowed.tree [] "a" scope).1 =
          Library.textFrom "a" scope content) ∧
        (q = ⟨"/", ["t", "o", "a"]⟩ ∨
          AtRendering [] ⟨.ofSettings shadowedSettings, shadowedTree⟩ shadowing "a" fun s' =>
            s'.library.resolve s'.tree [] "a" = .ok q ∧ s'.tree.read [] q = .ok content ∧
              s'.tree.isFile [] ⟨"/", ["t", "o", "a"]⟩ = false) :=
  ⟨isInward_a, rfl, (render_after shadowedSettings shadowedTree shadowing isInward_a).2 _ rfl⟩

/-- The lookup finds the new file, and the text is still made from the old one. -/
theorem render_shadowed :
    shadowed.library.resolve shadowed.tree [] "a" = .ok ⟨"/", ["t", "o", "a"]⟩ ∧
      shadowed.tree.read [] ⟨"/", ["t", "o", "a"]⟩ = .ok "new".toUTF8 ∧
      Library.textFrom "a" [] "new".toUTF8 = .ok "new".toList ∧
      (shadowed.library.render shadowed.tree [] "a" []).1 = .ok "old".toList :=
  ⟨rfl, rfl, eq_ok_of_toOption (by decide +kernel), eq_ok_of_toOption (by decide +kernel)⟩

end Session
end RouteCompiler.Template
