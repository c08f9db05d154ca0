import RouteCompiler.Proofs.Settings.Environment
import RouteCompiler.Proofs.Settings.Reading

/-!
Which source a setting comes from. Every field on its own has the value that the overrides give it,
else the environment, else the file, else its default: what a source above says about one field
leaves the fields beside it as they are below. The settings come about in two merges, the
environment over the file and both under the environment once more.

Three things keep a variable or a line of the file from its place, and the theorem leaves them out:
a section given as null takes the variables of its fields with it; a field that the section given
whole spells in two ways has its last spelling there, whatever its variable says; and a section
that the file spells in another case gives way to the environment's as a whole.
-/

namespace RouteCompiler

open Yaml (Value)
open Schema

/-- What is said about the fields of settings. -/
structure Said where
  maskSecrets : Option Value := none
  root : Option Value := none
  overridePath : Option Value := none
  resources : Option Value := none

/-- Field by field, the first where it says something and the second elsewhere. -/
def Said.or (a b : Said) : Said where
  maskSecrets := a.maskSecrets.or b.maskSecrets
  root := a.root.or b.root
  overridePath := a.overridePath.or b.overridePath
  resources := a.resources.or b.resources

/-- Every field has the value read from what is said about it, or its default. -/
structure Settings.Follows (s : Settings) (w : Said) : Prop where
  maskSecrets : Chosen truth false w.maskSecrets s.maskSecrets
  root : Chosen (orNull (text strictText)) none w.root s.templates.root
  overridePath : Chosen (orNull (text strictText)) none w.overridePath s.templates.overridePath
  resources : Chosen (list Resource.read) [] w.resources s.templates.resources

/-- The fields of the first settings that were said something about, and the others of the
second. -/
def Said.pick (w : Said) (a b : Settings) : Settings where
  maskSecrets := if w.maskSecrets.isSome then a.maskSecrets else b.maskSecrets
  templates.root := if w.root.isSome then a.templates.root else b.templates.root
  templates.overridePath :=
    if w.overridePath.isSome then a.templates.overridePath else b.templates.overridePath
  templates.resources :=
    if w.resources.isSome then a.templates.resources else b.templates.resources

theorem Settings.Follows.or {a b : Settings} {w w' : Said} (ha : a.Follows w) (hb : b.Follows w') :
    (w.pick a b).Follows (w.or w') :=
  ⟨ha.maskSecrets.or hb.maskSecrets, ha.root.or hb.root, ha.overridePath.or hb.overridePath,
    ha.resources.or hb.resources⟩

namespace Settings

/-! ## The sources -/

/-- The members of a document's templates section. -/
def sectionOf (es : Entries) : Entries :=
  match outer? templatesName es with
  | some (.map fields) => fields
  | _ => []

def saidByDocument (es : Entries) : Said where
  maskSecrets := outer? maskSecretsName es
  root := Value.entry? rootName (sectionOf es)
  overridePath := Value.entry? overridePathName (sectionOf es)
  resources := Value.entry? resourcesName (sectionOf es)

def saidByEnvironment (env : Environment) : Said where
  maskSecrets := mask? env
  root := field? env rootName
  overridePath := field? env overridePathName
  resources := field? env resourcesName

def saidByOverrides (o : Overrides) : Said where
  maskSecrets := o.maskSecrets.map .bool
  overridePath := o.overridePath.map fun (p : String) => .text p

/-- What is overridden follows the overrides, and all else what it followed before. -/
theorem Follows.override {s : Settings} {w : Said} (h : s.Follows w) (o : Overrides) :
    (s.override o).Follows ((saidByOverrides o).or w) := by
  obtain ⟨mask, path⟩ := o
  refine ⟨?_, ?_, ?_, ?_⟩
  · cases mask with
    | none => exact h.maskSecrets
    | some b => rfl
  · cases path <;> exact h.root
  · cases path with
    | none => exact h.overridePath
    | some p => exact congrArg (fun t => Checked.ok (some t)) (Points.toUnicode_ofString p)
  · cases path <;> exact h.resources

/-! ## Settings read from one document -/

variable {env : Environment} {es outer : Entries} {name f : String} {v : Value} {s : Settings}
  {mask templates : Option Value}

theorem follows_of_read (h : read es = .ok s) : s.Follows (saidByDocument es) := by
  obtain ⟨hmask, htemplates⟩ := read_eq_ok.1 h
  rw [saidByDocument, sectionOf]
  cases ho : outer? templatesName es with
  | none =>
    rw [ho] at htemplates
    have ht : s.templates = {} := htemplates
    constructor
    · exact hmask
    all_goals rw [ht]; rfl
  | some v =>
    rw [ho] at htemplates
    obtain ⟨fields, rfl⟩ := exists_map_of_read htemplates
    obtain ⟨hroot, hoverride, hresources⟩ := TemplateSettings.read_eq_ok.1 htemplates
    exact ⟨hmask, hroot, hoverride, hresources⟩

/-- Whatever follows what a document says can be read from it, if its templates are a mapping where
it has any. -/
theorem read_of_follows (ho : ∀ v, outer? templatesName es = some v → ∃ fields, v = .map fields)
    (h : s.Follows (saidByDocument es)) : read es = .ok s := by
  refine read_eq_ok.2 ⟨h.maskSecrets, ?_⟩
  rw [saidByDocument, sectionOf] at h
  cases hv : outer? templatesName es with
  | none =>
    rw [hv] at h
    obtain ⟨-, hroot, hoverride, hresources⟩ := h
    exact (TemplateSettings.mk.injEq ..).mpr ⟨hroot, hoverride, hresources⟩
  | some v =>
    obtain ⟨fields, rfl⟩ := ho v hv
    rw [hv] at h
    exact TemplateSettings.read_eq_ok.2 ⟨h.root, h.overridePath, h.resources⟩

/-! ## The environment -/

theorem lower_maskSecretsName : lower maskSecretsName = maskSecretsName := by decide

theorem lower_templatesName : lower templatesName = templatesName := by decide

theorem lower_otherCase (hname : lower name = name) (es : Entries) :
    lower (otherCase name es) = name := by
  rw [otherCase_eq]
  cases hlast : ((Value.textKeys es).filter fun k => lower k = name).getLast? with
  | none => exact hname
  | some k => simpa using (List.mem_filter.1 (List.mem_of_getLast? hlast)).2

theorem Outermost.lower_eq (h : Outermost mask templates outer) :
    ∀ k ∈ Value.textKeys outer, lower k = k := by
  intro k hk
  obtain rfl | rfl := h.keys k hk
  · exact lower_maskSecretsName
  · exact lower_templatesName

/-- Without the name itself there is no spelling of it in another case. -/
theorem Outermost.entry?_eq_none {k : String} (h : Outermost mask templates outer)
    (hname : Value.entry? name outer = none) (hk : lower k = name) :
    Value.entry? k outer = none := by
  rw [Value.entry?_eq_none_iff] at hname ⊢
  intro hmem
  rw [← hk, h.lower_eq k hmem] at hname
  exact hname hmem

theorem Outermost.outer?_eq (h : Outermost mask templates outer) (hname : lower name = name) :
    outer? name outer = Value.entry? name outer := by
  cases he : Value.entry? name outer with
  | some v => exact outer?_of_exact he
  | none => rw [outer?_of_none he, h.entry?_eq_none he (lower_otherCase hname outer)]

/-- No field of templates that are read holds a mapping. -/
theorem not_blocked {t : TemplateSettings} (h : TemplateSettings.read (.map es) = .ok t) :
    ∀ f ∈ templateFields, ¬ Blocked f es := by
  obtain ⟨hroot, hoverride, hresources⟩ := TemplateSettings.read_eq_ok.1 h
  rintro f hf ⟨inner, he⟩
  simp only [templateFields, List.mem_cons, List.not_mem_nil, or_false] at hf
  obtain rfl | rfl | rfl := hf
  · rw [he] at hroot
    cases hroot
  · rw [he] at hoverride
    cases hoverride
  · rw [he] at hresources
    cases hresources

/-- What settings read from the environment alone come from. -/
theorem saidByDocument_outermost (h : Outermost (mask? env) templates outer)
    (hsection : Section env templates) (hread : read outer = .ok s) :
    saidByDocument outer = saidByEnvironment env := by
  have hmask := h.outer?_eq lower_maskSecretsName
  have htemplates := h.outer?_eq lower_templatesName
  rw [h.mask] at hmask
  rw [h.templates] at htemplates
  have hfields : ∀ f ∈ templateFields, Value.entry? f (sectionOf outer) = field? env f := by
    intro f hf
    have hchosen := (read_eq_ok.1 hread).2
    rw [sectionOf, htemplates]
    rw [htemplates] at hchosen
    cases hsection with
    | missing hnone => exact (hnone f hf).symm
    | fields hd hfields => exact (hfields f hf).resolve_right (not_blocked hchosen f hf)
    | other hother =>
      obtain ⟨fields, rfl⟩ := exists_map_of_read hchosen
      exact absurd rfl (hother fields)
  rw [saidByDocument, saidByEnvironment, hmask, hfields rootName (by decide),
    hfields overridePathName (by decide), hfields resourcesName (by decide)]

/-! ## The merged document -/

/-- The environment over a file, and under it once more. -/
def merged (outer es : Entries) : Entries :=
  Value.overlayEntries outer (Value.overlayEntries es outer)

theorem otherCase_merged (h : Outermost mask templates outer) (hes : Value.Distinct es)
    (hname : Value.entry? name outer = none) :
    otherCase name (merged outer es) = otherCase name es := by
  have hnot : ∀ k, lower k = name → k ∉ Value.textKeys outer := fun k hk =>
    Value.entry?_eq_none_iff.1 (h.entry?_eq_none hname hk)
  have houter : ∀ {ks : List String}, ks ⊆ Value.textKeys outer →
      ks.filter (fun k => lower k = name) = [] := by
    intro ks hks
    refine List.filter_eq_nil_iff.2 fun k hk => ?_
    simpa using fun e => hnot k e (hks hk)
  have hbelow : ∀ ks : List String, (ks.filter fun k => k ∉ Value.textKeys outer).filter
      (fun k => lower k = name) = ks.filter fun k => lower k = name := by
    intro ks
    rw [List.filter_filter]
    refine List.filter_congr fun k _ => ?_
    by_cases hk : lower k = name
    · simp [hk, hnot k hk]
    · simp [hk]
  have hkeys : (Value.textKeys (merged outer es)).filter (fun k => lower k = name) =
      (Value.textKeys es).filter fun k => lower k = name := by
    rw [merged, Value.textKeys_overlayEntries (Value.distinct_overlayEntries hes),
      Value.textKeys_overlayEntries h.distinct, List.filter_append, hbelow, List.filter_append,
      houter (List.Subset.refl _), houter List.filter_sublist.subset, List.append_nil,
      List.nil_append]
  rw [otherCase_eq, otherCase_eq, hkeys]

/-- What the environment does not mention stays as the file has it. -/
theorem outer?_merged_of_none (h : Outermost mask templates outer) (hes : Value.Distinct es)
    (hlower : lower name = name) (hname : Value.entry? name outer = none) :
    outer? name (merged outer es) = outer? name es := by
  have hkept : ∀ k, lower k = name → Value.entry? k (merged outer es) = Value.entry? k es := by
    intro k hk
    rw [merged, Value.entry?_overlayEntries_twice hes h.distinct, h.entry?_eq_none hname hk]
  cases he : Value.entry? name es with
  | some v => rw [outer?_of_exact he, outer?_of_exact ((hkept name hlower).trans he)]
  | none =>
    rw [outer?_of_none he, outer?_of_none ((hkept name hlower).trans he),
      otherCase_merged h hes hname, hkept _ (lower_otherCase hlower es)]

theorem outer?_merged_of_some (h : Outermost mask templates outer) (hes : Value.Distinct es)
    (hname : Value.entry? name outer = some v) :
    outer? name (merged outer es) =
      some (Value.overlay v (Value.overlaid (Value.entry? name es) v)) := by
  refine outer?_of_exact ?_
  rw [merged, Value.entry?_overlayEntries_twice hes h.distinct, hname]

/-- What the file says about templates, its section being a mapping if there is one. -/
theorem exists_section_merged {fields : Entries} (h : Outermost mask (some (.map fields)) outer)
    (hes : Value.Distinct es) (hfields : Value.Distinct fields)
    (hbelow : Value.Distinct (sectionOf es))
    (hspelled : outer? templatesName es = Value.entry? templatesName es) :
    ∃ both, outer? templatesName (merged outer es) = some (.map both) ∧
      ∀ f, ¬ Blocked f fields →
        Value.entry? f both = (Value.entry? f fields).or (Value.entry? f (sectionOf es)) := by
  have hmap : ∀ {f v}, ¬ Blocked f fields → Value.entry? f fields = some v →
      ∀ inner, v ≠ .map inner := fun hblocked hv inner e => hblocked ⟨inner, e ▸ hv⟩
  rw [outer?_merged_of_some h hes h.templates, sectionOf, hspelled]
  rw [sectionOf, hspelled] at hbelow
  split
  next below he =>
    rw [he] at hbelow ⊢
    refine ⟨_, rfl, fun f hblocked => ?_⟩
    rw [Value.entry?_overlayEntries_twice hbelow hfields]
    cases hv : Value.entry? f fields with
    | none => rfl
    | some v =>
      refine congrArg some ?_
      rw [Value.overlaid_of_ne_map (hmap hblocked hv), Value.overlay_of_ne_map (hmap hblocked hv)]
  next hother =>
    have hover : Value.overlaid (Value.entry? templatesName es) (.map fields) = .map fields := by
      cases he : Value.entry? templatesName es with
      | none => rfl
      | some v =>
        cases v with
        | map below => exact absurd he (hother below)
        | _ => rfl
    rw [hover]
    refine ⟨_, rfl, fun f hblocked => ?_⟩
    rw [Value.entry?_overlayEntries hfields]
    cases hv : Value.entry? f fields with
    | none => rfl
    | some v => exact congrArg some (Value.overlaid_of_ne_map (hmap hblocked hv) _)

theorem outer?_maskSecrets_merged (h : Outermost mask templates outer) (hes : Value.Distinct es)
    (hread : read outer = .ok s) : outer? maskSecretsName (merged outer es) =
      (outer? maskSecretsName outer).or (outer? maskSecretsName es) := by
  have hmask := (read_eq_ok.1 hread).1
  rw [h.outer?_eq lower_maskSecretsName] at hmask ⊢
  cases hv : Value.entry? maskSecretsName outer with
  | none => exact outer?_merged_of_none h hes lower_maskSecretsName hv
  | some v =>
    have hmap : ∀ inner, v ≠ .map inner := by
      rintro inner rfl
      rw [hv] at hmask
      cases hmask
    rw [outer?_merged_of_some h hes hv, Value.overlaid_of_ne_map hmap, Value.overlay_of_ne_map hmap]
    rfl

/-- What the merged document says, and that its templates are a mapping. -/
theorem saidByDocument_merged {f e : Settings} (h : Outermost mask templates outer)
    (hes : Value.Distinct es) (hbelow : Value.Distinct (sectionOf es))
    (hfields : ∀ fields, templates = some (.map fields) → Value.Distinct fields)
    (hspelled : templates.isSome → outer? templatesName es = Value.entry? templatesName es)
    (hfile : read es = .ok f) (houter : read outer = .ok e) :
    saidByDocument (merged outer es) = (saidByDocument outer).or (saidByDocument es) ∧
      ∀ v, outer? templatesName (merged outer es) = some v → ∃ fields, v = .map fields := by
  have hmask := outer?_maskSecrets_merged h hes houter
  have hchosen := (read_eq_ok.1 houter).2
  have htemplates := h.outer?_eq lower_templatesName
  rw [h.templates] at htemplates
  rw [htemplates] at hchosen
  cases templates with
  | none =>
    have hnone := outer?_merged_of_none h hes lower_templatesName h.templates
    have hsection : sectionOf (merged outer es) = sectionOf es := by
      rw [sectionOf, hnone, sectionOf]
    have hempty : sectionOf outer = [] := by rw [sectionOf, htemplates]
    refine ⟨?_, fun v hv => ?_⟩
    · rw [saidByDocument, hmask, hsection, saidByDocument, hempty, saidByDocument]
      rfl
    · have hfiled := (read_eq_ok.1 hfile).2
      rw [← hnone, hv] at hfiled
      exact exists_map_of_read hfiled
  | some v =>
    obtain ⟨fields, rfl⟩ := exists_map_of_read hchosen
    obtain ⟨both, hboth, hentry⟩ := exists_section_merged h hes (hfields fields rfl) hbelow
      (hspelled rfl)
    have hsection : sectionOf (merged outer es) = both := by rw [sectionOf, hboth]
    have habove : sectionOf outer = fields := by rw [sectionOf, htemplates]
    have hfield := fun f hf => hentry f (not_blocked hchosen f hf)
    refine ⟨?_, fun v hv => ⟨both, Option.some.inj (hv.symm.trans hboth)⟩⟩
    rw [saidByDocument, hmask, hsection, hfield rootName (by decide),
      hfield overridePathName (by decide), hfield resourcesName (by decide), ← habove]
    rfl

/-! ## Loading -/

/-- The document of the file is this mapping; one that says nothing is empty. -/
def IsDocument (t : FileTree) (cwd : Location) (p : Path) (es : Entries) : Prop :=
  ∃ b s v, t.read cwd p = .ok b ∧ Text.ofBytes? b = some s ∧ Value.read s = .ok v ∧
    (if v.saysNothing then .map [] else v) = .map es

variable {t : FileTree} {cwd : Location} {p : Path}

theorem neat_of_isDocument (h : IsDocument t cwd p es) : (Value.map es).Neat := by
  obtain ⟨b, text, v, -, -, hread, hes⟩ := h
  rw [← hes]
  split
  · exact .map Value.distinct_nil nofun
  · exact Value.neat_of_read hread

theorem hasTextKeys_putEntry {k : String} (es : Entries) :
    hasTextKeys (Value.putEntry (.text k) v es) = hasTextKeys es := by
  induction es with
  | nil => rfl
  | cons e es ih =>
    rw [Value.putEntry]
    split
    · rfl
    · rw [hasTextKeys, List.all_cons, ← hasTextKeys, ih, hasTextKeys, hasTextKeys, List.all_cons]

/-- Writing text keys over a document leaves the question whether it has others. -/
theorem hasTextKeys_overlayEntries (h : ∀ e ∈ outer, ∃ k : String, e.1 = .text k) (es : Entries) :
    hasTextKeys (Value.overlayEntries es outer) = hasTextKeys es := by
  induction outer generalizing es with
  | nil => rfl
  | cons e outer ih =>
    obtain ⟨⟨k, hk⟩, hrest⟩ := List.forall_mem_cons.1 h
    obtain ⟨a, v⟩ := e
    obtain rfl : a = .text k := hk
    rw [Value.overlayEntries_cons, ih hrest, hasTextKeys_putEntry]

theorem load_eq_ok (hdoc : IsDocument t cwd p es) (hE : ofEnvironment env = .ok outer) :
    load env t cwd (some p) = .ok s ↔
      hasTextKeys (Value.overlayEntries es outer) = true ∧ read (merged outer es) = .ok s := by
  obtain ⟨b, text, v, hb, htext, hread, hes⟩ := hdoc
  rw [load, hb]
  simp only [htext, hread]
  rw [ofDocument, hes, merged]
  simp only [hE, ofEntries, Except.mapError, bind, Except.bind, pure, Except.pure]
  cases hasTextKeys (Value.overlayEntries es outer) with
  | false => simp
  | true =>
    cases read (Value.overlayEntries outer (Value.overlayEntries es outer)) <;> simp

theorem load_none_eq_ok : load env t cwd none = .ok s ↔
    ∃ outer, ofEnvironment env = .ok outer ∧ read outer = .ok s := by
  rw [load, ofGiven, ofEntries]
  cases ofEnvironment env with
  | error b => simp [bind, Except.bind]
  | ok outer =>
    simp only [bind, Except.bind, pure, Except.pure, Value.overlayEntries]
    cases hr : read outer <;> simp [hr]

theorem outermost_nil : Outermost none none [] := outermost_append none none

/-- The environment has a templates section of its own. -/
def Environment.HasSection (env : Environment) : Prop :=
  ∃ outer v, ofEnvironment env = .ok outer ∧ Value.entry? templatesName outer = some v

/-- If the section is there in any case, then in its own. -/
def SpellsSection (es : Entries) : Prop :=
  ∀ k ∈ Value.textKeys es, lower k = templatesName → templatesName ∈ Value.textKeys es

theorem outer?_of_spellsSection (h : SpellsSection es) :
    outer? templatesName es = Value.entry? templatesName es := by
  cases he : Value.entry? templatesName es with
  | some v => exact outer?_of_exact he
  | none =>
    rw [outer?_of_none he, Value.entry?_eq_none_iff]
    intro hk
    exact Value.entry?_eq_none_iff.1 he (h _ hk (lower_otherCase lower_templatesName es))

theorem distinct_sectionOf (h : (Value.map es).Neat) : Value.Distinct (sectionOf es) := by
  rw [sectionOf]
  split
  next fields ho =>
    obtain ⟨e, he, hv⟩ := exists_mem_of_outer? ho
    cases h with
    | map _ hbelow =>
      have hneat := hbelow e he
      rw [hv] at hneat
      cases hneat with
      | map hd _ => exact hd
      | other hnot => exact absurd rfl (hnot fields)
    | other hnot => exact absurd rfl (hnot es)
  next => exact Value.distinct_nil

theorem distinct_of_neat (h : (Value.map es).Neat) : Value.Distinct es := by
  cases h with
  | map hd _ => exact hd
  | other hnot => exact absurd rfl (hnot es)

theorem ofEnvironment_nil : ofEnvironment [] = .ok [] := rfl

/-- Without an environment the document itself is read. -/
theorem read_of_load_nil {f : Settings} (hdoc : IsDocument t cwd p es)
    (h : load [] t cwd (some p) = .ok f) : hasTextKeys es = true ∧ read es = .ok f := by
  have hes := distinct_of_neat (neat_of_isDocument hdoc)
  obtain ⟨hkeys, hread⟩ := (load_eq_ok hdoc ofEnvironment_nil).1 h
  refine ⟨hkeys, ?_⟩
  rw [read_eq_ok, outer?_merged_of_none outermost_nil hes lower_maskSecretsName rfl,
    outer?_merged_of_none outermost_nil hes lower_templatesName rfl] at hread
  exact read_eq_ok.2 hread

/-- Settings loaded from a file, with overrides: each field follows the overrides, else the
environment, else the file. Both sources are read without the other as well, so there are settings
whatever fields they share. -/
theorem exists_load_follows {f e : Settings} (hplain : env.Plain) (hdoc : IsDocument t cwd p es)
    (hspelled : env.HasSection → SpellsSection es)
    (hfile : load [] t cwd (some p) = .ok f) (henv : load env t cwd none = .ok e) :
    ∃ s, load env t cwd (some p) = .ok s ∧ ∀ o, (s.override o).Follows
      ((saidByOverrides o).or ((saidByEnvironment env).or (saidByDocument es))) := by
  have hneat := neat_of_isDocument hdoc
  obtain ⟨hkeys, hfile⟩ := read_of_load_nil hdoc hfile
  obtain ⟨outer, houter, henv⟩ := load_none_eq_ok.1 henv
  obtain ⟨templates, hsays, hsection⟩ := outermost_of_ofEnvironment hplain houter
  have hfields : ∀ fields, templates = some (.map fields) → Value.Distinct fields := by
    rintro fields rfl
    cases hsection with
    | fields hd _ => exact hd
    | other hnot => exact absurd rfl (hnot fields)
  have hspelled : templates.isSome → outer? templatesName es = Value.entry? templatesName es := by
    intro hsome
    obtain ⟨v, rfl⟩ := Option.isSome_iff_exists.1 hsome
    exact outer?_of_spellsSection (hspelled ⟨outer, v, houter, hsays.templates⟩)
  obtain ⟨hsaid, hmap⟩ := saidByDocument_merged hsays (distinct_of_neat hneat)
    (distinct_sectionOf hneat) hfields hspelled hfile henv
  have hfollows := (follows_of_read henv).or (follows_of_read hfile)
  refine ⟨_, (load_eq_ok hdoc houter).2 ⟨?_, read_of_follows hmap (hsaid ▸ hfollows)⟩, fun o => ?_⟩
  · rw [hasTextKeys_overlayEntries hsays.textual, hkeys]
  · rw [← saidByDocument_outermost hsays hsection henv]
    exact hfollows.override o

/-! ## Sources together -/

def layeredFile : String := "templates: \x7broot: below, override_path: below\x7d"

def layeredTree : FileTree := ⟨.ofList [(["c.yml"], .file layeredFile.toUTF8)]⟩

/-- The section given whole and a field of it on its own. -/
def layeredVariables : Environment :=
  [("FLOWGEN_TEMPLATES", "\x7b\"override_path\": \"whole\"\x7d"),
    ("Flowgen_Templates__Override_Path", "own")]

def entriesOf (s : String) : Entries :=
  match Value.read s with
  | .ok (.map es) => es
  | _ => []

def layered : Settings := ⟨false, ⟨some "below", some "own", []⟩⟩

theorem isDocument_layeredFile :
    IsDocument layeredTree [] (Path.ofString "c.yml") (entriesOf layeredFile) := by
  have hmap : (match Value.read layeredFile with
      | .ok (.map _) => true
      | _ => false) = true := by decide +kernel
  have hread : Value.read layeredFile = .ok (.map (entriesOf layeredFile)) := by
    rw [entriesOf]
    split at hmap
    next h => rw [h]
    next => cases hmap
  refine ⟨layeredFile.toUTF8, layeredFile, _, by decide +kernel, by decide +kernel, hread, ?_⟩
  cases entriesOf layeredFile <;> rfl

theorem plain_layeredVariables : layeredVariables.Plain := by
  refine ⟨fun s hs hnull => ?_, by decide +kernel⟩
  have hcollection : (((lowered layeredVariables).get? sectionVariable).all fun s =>
      (fromJson s).toOption.any Value.isCollection) = true := by decide +kernel
  rw [hs, Option.all_some, hnull] at hcollection
  cases hcollection

theorem exists_load_follows_layered :
    load layeredVariables layeredTree [] (some (Path.ofString "c.yml")) = .ok layered ∧
    ∀ o, (layered.override o).Follows ((saidByOverrides o).or
      ((saidByEnvironment layeredVariables).or (saidByDocument (entriesOf layeredFile)))) := by
  have hfile : load [] layeredTree [] (some (Path.ofString "c.yml")) =
      .ok ⟨false, ⟨some "below", some "below", []⟩⟩ := eq_ok_of_toOption (by decide +kernel)
  have henv : load layeredVariables layeredTree [] none = .ok ⟨false, ⟨none, some "own", []⟩⟩ :=
    eq_ok_of_toOption (by decide +kernel)
  have hload : load layeredVariables layeredTree [] (some (Path.ofString "c.yml")) = .ok layered :=
    eq_ok_of_toOption (by decide +kernel)
  have hspelled : SpellsSection (entriesOf layeredFile) := by
    unfold SpellsSection
    decide +kernel
  obtain ⟨s, hs, hfollows⟩ := exists_load_follows plain_layeredVariables isDocument_layeredFile
    (fun _ => hspelled) hfile henv
  obtain rfl := Except.ok.inj (hs.symm.trans hload)
  exact ⟨hload, hfollows⟩

/-- The section given as null takes the variable of its field with it. -/
def nullVariables : Environment :=
  [("FLOWGEN_TEMPLATES", "null"), ("FLOWGEN_TEMPLATES__ROOT", "above")]

theorem load_nullVariables :
    (load [] layeredTree [] (some (Path.ofString "c.yml"))).toOption.isSome ∧
    (load nullVariables layeredTree [] none).toOption.isSome ∧
    ((lowered nullVariables).get? (fieldVariable rootName) = some "above") ∧
    (load nullVariables layeredTree [] (some (Path.ofString "c.yml"))).toOption.map
      (fun s => s.templates.root) = some (some "below") := by
  decide +kernel

end Settings
end RouteCompiler
