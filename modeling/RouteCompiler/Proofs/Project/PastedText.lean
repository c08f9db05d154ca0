import RouteCompiler.Proofs.Project.Delivery
import RouteCompiler.Proofs.Project.Descriptor
import RouteCompiler.Proofs.Text.PropertyLines
import RouteCompiler.Proofs.Text.SourceComment

/-!
Texts of a request that the templates put into the settings and into the entry point of a project as
they are. The settings say what the request says exactly if the texts stay in their lines and need
no escapes; the entry point is the same but for its comment exactly if the name stays in that. Both
are taken as the characters that were written: readers that decode the bytes as another encoding
than UTF-8 are left out.
-/

namespace RouteCompiler

open Project Template Text

namespace Pasted

/-- The shipped templates that escape nothing. -/
def settingsTemplate : String × String :=
  ("application.properties.jinja", Shipped.textOf Shipped.propertiesLines)

def entryPointTemplate : String × String :=
  ("Application.java.jinja", Shipped.textOf Shipped.applicationLines)

theorem settingsTemplate_mem : settingsTemplate ∈ Shipped.files := by
  simp [Shipped.files, settingsTemplate]

theorem entryPointTemplate_mem : entryPointTemplate ∈ Shipped.files := by
  simp [Shipped.files, entryPointTemplate]

/-- What an integration goes by: its identifier, or its name without one. -/
def shownName (i : Integration) : String := (said i.id).getD i.name

/-! ## The settings -/

def nameKey : String := "spring.application.name"

def shownNameKey : String := "camel.springboot.name"

/-- The keys of the settings, in their order. -/
def keys : List String :=
  [ nameKey, "spring.main.banner-mode", shownNameKey, "camel.springboot.main-run-controller",
    "logging.level.io.flowgen.integration.runtime" ]

/-- The settings as they are meant. -/
def settings (i : Integration) : List (String × String) :=
  [ (nameKey, i.name), ("spring.main.banner-mode", "off"), (shownNameKey, shownName i),
    ("camel.springboot.main-run-controller", "true"),
    ("logging.level.io.flowgen.integration.runtime", "INFO") ]

def entry (e : String × String) : PropertyLines.Entry := (units e.1.toList, units e.2.toList)

/-- The entries have the keys of the settings, each once, and the texts of the integration. -/
structure Says (i : Integration) (es : List PropertyLines.Entry) : Prop where
  keys : (es.map Prod.fst).Perm (keys.map fun key => units key.toList)
  name : entry (nameKey, i.name) ∈ es
  shownName : entry (shownNameKey, shownName i) ∈ es

theorem properties_eq (i : Integration) : Documents.properties i =
    nameKey.toList ++ '=' :: (i.name.toList ++ '\n' ::
      ("spring.main.banner-mode=of".toList ++ ['f'] ++ '\n' ::
        (shownNameKey.toList ++ '=' :: ((shownName i).toList ++ '\n' ::
          ("camel.springboot.main-run-controller=tru".toList ++ ['e'] ++ '\n' ::
            "logging.level.io.flowgen.integration.runtime=INFO\n".toList))))) := by
  have hbanner : Shipped.charsOf ((Shipped.propertiesLines.drop 1).take 1) =
      "spring.main.banner-mode=of".toList ++ ['f', '\n'] := by
    decide +kernel
  have hrest : Shipped.charsOf (Shipped.propertiesLines.drop 3) =
      "camel.springboot.main-run-controller=tru".toList ++ ['e', '\n'] ++
        "logging.level.io.flowgen.integration.runtime=INFO\n".toList := by
    decide +kernel
  have hname : "spring.application.name=".toList = nameKey.toList ++ ['='] := by decide +kernel
  have hshown : "camel.springboot.name=".toList = shownNameKey.toList ++ ['='] := by decide +kernel
  unfold Documents.properties shownName
  simp only [hbanner, hrest, hname, hshown, List.append_assoc, List.cons_append, List.nil_append]

theorem closes_banner : PropertyLines.Closes "spring.main.banner-mode=of".toList 'f' :=
  ⟨by decide, by decide, by decide⟩

theorem closes_controller :
    PropertyLines.Closes "camel.springboot.main-run-controller=tru".toList 'e' :=
  ⟨by decide, by decide, by decide⟩

theorem isKey_nameKey : PropertyLines.IsKey nameKey.toList := by decide

theorem isKey_shownNameKey : PropertyLines.IsKey shownNameKey.toList := by decide

theorem read_banner (rest : List Char) :
    PropertyLines.read ("spring.main.banner-mode=of".toList ++ ['f'] ++ '\n' :: rest) =
      (PropertyLines.read rest).map (entry ("spring.main.banner-mode", "off") :: ·) := by
  have hline : "spring.main.banner-mode=of".toList ++ ['f'] ++ '\n' :: rest =
      "spring.main.banner-mode".toList ++ '=' :: ("off".toList ++ '\n' :: rest) := by
    rfl
  rw [hline]
  exact PropertyLines.read_plain (by decide) (by decide) rest

theorem read_closing :
    PropertyLines.read ("camel.springboot.main-run-controller=tru".toList ++ ['e'] ++ '\n' ::
        "logging.level.io.flowgen.integration.runtime=INFO\n".toList) =
      some [ entry ("camel.springboot.main-run-controller", "true"),
             entry ("logging.level.io.flowgen.integration.runtime", "INFO") ] := by
  decide +kernel

theorem nodup_keys : (keys.map fun key => units key.toList).Nodup := by
  decide +kernel

variable {i : Integration}

/-- Settings whose texts are plain are read as they are meant. -/
theorem read_properties (hname : PropertyLines.IsPlain i.name.toList)
    (hshown : PropertyLines.IsPlain (shownName i).toList) :
    PropertyLines.read (Documents.properties i) = some ((settings i).map entry) := by
  rw [properties_eq, PropertyLines.read_plain isKey_nameKey hname, read_banner,
    PropertyLines.read_plain isKey_shownNameKey hshown, read_closing]
  rfl

theorem Says.value_eq {es : List PropertyLines.Entry} (h : Says i es) {key : List Nat}
    {value value' : List Nat} (hv : (key, value) ∈ es) (hv' : (key, value') ∈ es) :
    value = value' := by
  have hnodup : (es.map Prod.fst).Nodup := h.keys.nodup_iff.2 nodup_keys
  exact (Prod.mk.inj (List.inj_on_of_nodup_map hnodup hv hv' rfl)).2

/-- And else they do not say what they are meant to say. -/
theorem isPlain_of_says {es : List PropertyLines.Entry}
    (hes : PropertyLines.read (Documents.properties i) = some es) (h : Says i es) :
    PropertyLines.IsPlain i.name.toList ∧ PropertyLines.IsPlain (shownName i).toList := by
  rw [properties_eq] at hes
  have hname : PropertyLines.IsPlain i.name.toList := by
    by_contra hnot
    obtain ⟨value, later, rfl, hne⟩ :=
      PropertyLines.read_not_plain isKey_nameKey hnot closes_banner hes
    exact hne (h.value_eq List.mem_cons_self h.name)
  refine ⟨hname, ?_⟩
  by_contra hnot
  rw [PropertyLines.read_plain isKey_nameKey hname, read_banner] at hes
  obtain ⟨es₁, hes₁, rfl⟩ := Option.map_eq_some_iff.1 hes
  obtain ⟨es₂, hes₂, rfl⟩ := Option.map_eq_some_iff.1 hes₁
  obtain ⟨value, later, rfl, hne⟩ :=
    PropertyLines.read_not_plain isKey_shownNameKey hnot closes_controller hes₂
  exact hne (h.value_eq (by simp) h.shownName)

theorem says_settings (i : Integration) : Says i ((settings i).map entry) where
  keys := by simp [settings, keys, entry]
  name := List.mem_cons_self
  shownName := List.mem_of_getElem? (i := 2) rfl

/-! ## The entry point -/

/-- The comment of the entry point, with a place for a name. -/
def frame : SourceComment.Frame where
  before := Shipped.charsOf (Shipped.applicationLines.take 5)
  opening := "*\n * Entry point of the ".toList
  closing := " integration.\n ".toList
  after := '\n' :: Shipped.charsOf (Shipped.applicationLines.drop 8)
  unescaped := by decide +kernel
  opens := by decide +kernel
  stays := by decide +kernel

/-- The entry point without its comment. -/
def bareEntryPoint : List Char := frame.before ++ frame.after

theorem application_eq (i : Integration) : Documents.application i = frame.text i.name.toList := by
  have hopening : Shipped.charsOf (Shipped.applicationLines.take 6) =
      Shipped.charsOf (Shipped.applicationLines.take 5) ++ "/**\n".toList := by
    decide +kernel
  have hclosing : Shipped.charsOf (Shipped.applicationLines.drop 7) =
      " */\n".toList ++ Shipped.charsOf (Shipped.applicationLines.drop 8) := by
    decide +kernel
  unfold Documents.application SourceComment.Frame.text frame
  simp only [hopening, hclosing]
  generalize Shipped.charsOf (Shipped.applicationLines.take 5) = before,
    Shipped.charsOf (Shipped.applicationLines.drop 8) = after
  simp

end Pasted

/-- The settings of a project have exactly their keys, with the name of the integration and what it
goes by, if and only if both are plain; and then they are read as they are meant. The entry point is
the same but for its comment if and only if the name stays in the comment. -/
theorem pasted_text_stays_iff {c : Compiler} {src : Sources} (hr : c.registry = Registry.builtin)
    (hs : src.Serves c.templates Pasted.settingsTemplate)
    (he : src.Serves c.templates Pasted.entryPointTemplate) (r : FlowRequest) :
    ∃ settings entryPoint : String,
      (c.templates.render src.tree src.cwd Pasted.settingsTemplate.1 (requestScope r)).1 =
        .ok settings.toList ∧
      (c.templates.render src.tree src.cwd Pasted.entryPointTemplate.1 (requestScope r)).1 =
        .ok entryPoint.toList ∧
      (∀ files, (c.generate src r).1 = .ok files →
        files.get? propertiesPath = some settings.toUTF8 ∧
          files.get? applicationPath = some entryPoint.toUTF8) ∧
      ((∃ es, PropertyLines.read settings.toList = some es ∧ Pasted.Says r.integration es) ↔
        PropertyLines.IsPlain r.integration.name.toList ∧
          PropertyLines.IsPlain (Pasted.shownName r.integration).toList) ∧
      (PropertyLines.IsPlain r.integration.name.toList →
        PropertyLines.IsPlain (Pasted.shownName r.integration).toList →
        PropertyLines.read settings.toList =
          some ((Pasted.settings r.integration).map Pasted.entry)) ∧
      (SourceComment.withoutComment entryPoint.toList = some (units Pasted.bareEntryPoint) ↔
        SourceComment.StaysInside r.integration.name.toList) := by
  have hsettings := hs.hasText Shipped.parse_properties (by decide +kernel)
    (Documents.renders_properties r)
  have hentry := he.hasText Shipped.parse_application (by decide +kernel)
    (Documents.renders_application r)
  refine ⟨_, _, hsettings.render_eq, hentry.render_eq, fun files hfiles => ⟨?_, ?_⟩, ?_⟩
  · exact get?_of_makes hr hfiles (Makes.document (c := c)
      (f := (propertiesPath, "application.properties.jinja")) (by simp [requestFiles]) hsettings)
  · exact get?_of_makes hr hfiles (Makes.document (c := c)
      (f := (applicationPath, "Application.java.jinja")) (by simp [requestFiles]) hentry)
  · rw [String.toList_ofList, String.toList_ofList, Pasted.application_eq]
    refine ⟨⟨?_, ?_⟩, Pasted.read_properties, Pasted.frame.withoutComment_text_iff⟩
    · rintro ⟨es, hes, hsays⟩
      exact Pasted.isPlain_of_says hes hsays
    · rintro ⟨hname, hshown⟩
      exact ⟨_, Pasted.read_properties hname hshown, Pasted.says_settings r.integration⟩

/-- A name with separators, comment marks and quotes, none of which does any harm. -/
def separatedIntegration : Integration where
  id := some "orders: new"
  name := "Größe = 5 # \"neu\" /* !"

theorem pasted_text_stays_separated :
    let c := Compiler.ofSettings {}
    let src : Sources := ⟨Shipped.install FileTree.empty, []⟩
    let r : FlowRequest := { integration := separatedIntegration }
    ∃ settings entryPoint : String, ∃ files, (c.generate src r).1 = .ok files ∧
      files.get? propertiesPath = some settings.toUTF8 ∧
      files.get? applicationPath = some entryPoint.toUTF8 ∧
      PropertyLines.read settings.toList =
        some ([ ("spring.application.name", "Größe = 5 # \"neu\" /* !"),
                ("spring.main.banner-mode", "off"), ("camel.springboot.name", "orders: new"),
                ("camel.springboot.main-run-controller", "true"),
                ("logging.level.io.flowgen.integration.runtime", "INFO") ].map Pasted.entry) ∧
      SourceComment.withoutComment entryPoint.toList = some (units Pasted.bareEntryPoint) := by
  intro c src r
  have serves : src.ServesShipped c.templates := Library.servesShipped_ofSettings (s := {}) rfl rfl
  have compiles : ∀ s ∈ r.integration.steps, ¬ s.Fails r := List.forall_mem_nil _
  obtain ⟨files, hfiles, -⟩ := generate_ok (c := c) rfl serves rfl compiles
  have hsettings : src.Serves c.templates Pasted.settingsTemplate :=
    serves _ Pasted.settingsTemplate_mem
  have hentry : src.Serves c.templates Pasted.entryPointTemplate :=
    serves _ Pasted.entryPointTemplate_mem
  obtain ⟨settings, entryPoint, -, -, hproject, -, hread, hbare⟩ :=
    pasted_text_stays_iff rfl hsettings hentry r
  have hname : PropertyLines.IsPlain separatedIntegration.name.toList := by decide +kernel
  have hshown : PropertyLines.IsPlain (Pasted.shownName separatedIntegration).toList := by
    decide +kernel
  refine ⟨settings, entryPoint, files, hfiles, (hproject files hfiles).1, (hproject files hfiles).2,
    hread hname hshown, hbare.2 ⟨_, EscapeRules.decode_eq_units _ (by decide +kernel), ?_⟩⟩
  decide +kernel

/-- A backslash in the name is lost in the settings, and a name that ends the comment changes the
entry point. -/
theorem pasted_text_lost :
    let c := Compiler.ofSettings {}
    let src : Sources := ⟨Shipped.install FileTree.empty, []⟩
    (∃ settings : String,
      (c.templates.render src.tree src.cwd "application.properties.jinja"
        (requestScope { integration := { name := "a\\b" } })).1 = .ok settings.toList ∧
      PropertyLines.read settings.toList =
        some ((Pasted.settings { name := "ab" }).map Pasted.entry) ∧
      ¬ ∃ es, PropertyLines.read settings.toList = some es ∧ Pasted.Says { name := "a\\b" } es) ∧
    ∃ entryPoint : String,
      (c.templates.render src.tree src.cwd "Application.java.jinja"
        (requestScope { integration := { name := "*/" } })).1 = .ok entryPoint.toList ∧
      SourceComment.withoutComment entryPoint.toList ≠ some (units Pasted.bareEntryPoint) := by
  intro c src
  have serves : src.ServesShipped c.templates := Library.servesShipped_ofSettings (s := {}) rfl rfl
  have hsettings : src.Serves c.templates Pasted.settingsTemplate :=
    serves _ Pasted.settingsTemplate_mem
  have hentry : src.Serves c.templates Pasted.entryPointTemplate :=
    serves _ Pasted.entryPointTemplate_mem
  refine ⟨⟨_, (hsettings.hasText Shipped.parse_properties (by decide +kernel)
    (Documents.renders_properties _)).render_eq, ?_, ?_⟩,
    ⟨_, (hentry.hasText Shipped.parse_application (by decide +kernel)
      (Documents.renders_application _)).render_eq, ?_⟩⟩
  · rw [String.toList_ofList]
    decide +kernel
  · rintro ⟨es, hes, hsays⟩
    rw [String.toList_ofList] at hes
    have hplain := (Pasted.isPlain_of_says hes hsays).1
    revert hplain
    decide +kernel
  · rw [String.toList_ofList, Pasted.application_eq]
    intro hbare
    obtain ⟨us, hus, hstays⟩ := Pasted.frame.withoutComment_text_iff.1 hbare
    rw [EscapeRules.decode_eq_units _ (by decide +kernel)] at hus
    cases hus
    exact hstays (by decide +kernel)

end RouteCompiler
