import RouteCompiler.Proofs.Project.Writing
import RouteCompiler.Proofs.Template.Markup

/-!
The shipped build descriptor, read back. Which tags it has is settled by the presence of a
description and by the number of dependencies alone; the texts of the integration stand between
these tags, each in its place, and say there what they say in the request.
-/

namespace RouteCompiler

open Project Template

/-- Under the name of a file the library has what that file says. -/
def Sources.Serves (src : Sources) (l : Library) (f : String × String) : Prop :=
  ∃ x l', l.load src.tree src.cwd f.1 = .ok (x, l') ∧ Library.parse f.2.toUTF8 = .ok x.nodes

namespace Descriptor

/-- The shipped template of build descriptors. -/
def shipped : String × String := (descriptorTemplate, Shipped.textOf Shipped.pomLines)

/-! ## The tags and the texts of a build descriptor -/

/-- The tags before those of the description. -/
def openingTags : List String :=
  [ "?xml version=\"1.0\" encoding=\"UTF-8\"?",
    "project xmlns=\"http://maven.apache.org/POM/4.0.0\"\n" ++
      "         xmlns:xsi=\"http://www.w3.org/2001/XMLSchema-instance\"\n" ++
      "         xsi:schemaLocation=\"http://maven.apache.org/POM/4.0.0 " ++
      "http://maven.apache.org/maven-v4_0_0.xsd\"",
    "modelVersion", "/modelVersion", "groupId", "/groupId", "artifactId", "/artifactId",
    "version", "/version", "name", "/name" ]

def descriptionTags : List String := ["description", "/description"]

/-- The tags between the description and the dependencies, with the two starters. -/
def middleTags : List String :=
  [ "packaging", "/packaging",
    "parent", "groupId", "/groupId", "artifactId", "/artifactId", "version", "/version",
    "relativePath/", "/parent",
    "properties", "java.version", "/java.version", "camel.version", "/camel.version", "/properties",
    "dependencyManagement", "dependencies", "dependency", "groupId", "/groupId", "artifactId",
    "/artifactId", "version", "/version", "type", "/type", "scope", "/scope", "/dependency",
    "/dependencies", "/dependencyManagement",
    "dependencies",
    "dependency", "groupId", "/groupId", "artifactId", "/artifactId", "/dependency",
    "dependency", "groupId", "/groupId", "artifactId", "/artifactId", "/dependency" ]

def dependencyTags : List String :=
  [ "dependency", "groupId", "/groupId", "artifactId", "/artifactId", "version", "/version",
    "/dependency" ]

def closingTags : List String :=
  [ "/dependencies", "build", "plugins", "plugin", "groupId", "/groupId", "artifactId",
    "/artifactId", "/plugin", "/plugins", "/build", "/project" ]

/-- The tags of a build descriptor with or without a description and with so many dependencies. -/
def tags (described : Bool) (dependencies : Nat) : List String :=
  openingTags ++ (if described then descriptionTags else []) ++ middleTags ++
    (List.replicate dependencies dependencyTags).flatten ++ closingTags

/-- The texts in front of the tags: what an integration says, and blanks or constants. -/
def openingTexts (i : Integration) : List String :=
  [ "", "\n", "\n  ", "4.0.0", "\n\n  ", "io.flowgen.integrations", "\n  ",
    (said i.id).getD "integration", "\n  ", "0.1.0", "\n  ", i.name ]

def descriptionTexts (d : String) : List String := ["\n  ", d]

def middleTexts : List String :=
  [ "\n  ", "jar",
    "\n\n  ", "\n    ", "org.springframework.boot", "\n    ", "spring-boot-starter-parent",
    "\n    ", "3.3.4", "\n    ", "\n  ",
    "\n\n  ", "\n    ", "17", "\n    ", "4.8.0", "\n  ",
    "\n\n  ", "\n    ", "\n      ", "\n        ", "org.apache.camel.springboot", "\n        ",
    "camel-spring-boot-bom", "\n        ", "$\x7bcamel.version\x7d", "\n        ", "pom",
    "\n        ", "import", "\n      ", "\n    ", "\n  ",
    "\n\n  ",
    "\n    ", "\n      ", "org.apache.camel.springboot", "\n      ", "camel-spring-boot-starter",
    "\n    ",
    "\n    ", "\n      ", "org.apache.camel.springboot", "\n      ", "camel-yaml-dsl-starter",
    "\n    " ]

def dependencyTexts (c : Coordinate) : List String :=
  ["\n    ", "\n      ", c.group, "\n      ", c.artifact, "\n      ", c.version, "\n    "]

def closingTexts : List String :=
  [ "\n  ", "\n\n  ", "\n    ", "\n      ", "\n        ", "org.springframework.boot", "\n        ",
    "spring-boot-maven-plugin", "\n      ", "\n    ", "\n  ", "\n" ]

def texts (i : Integration) (dependencies : List Coordinate) : List String :=
  openingTexts i ++ (said i.description).elim [] descriptionTexts ++ middleTexts ++
    dependencies.flatMap dependencyTexts ++ closingTexts

/-! ## Reading the parts -/

open Markup Shipped Documents

/-- Texts and tags that are read behind a text, given as strings. -/
def ReadsAs (t cs : List Char) (texts tags : List String) (t' : List Char) : Prop :=
  Reads t cs (texts.map String.toList) (tags.map String.toList) t'

theorem ReadsAs.append {t t' t'' cs ds : List Char} {texts tags texts' tags' : List String}
    (h : ReadsAs t cs texts tags t') (h' : ReadsAs t' ds texts' tags' t'') :
    ReadsAs t (cs ++ ds) (texts ++ texts') (tags ++ tags') t'' := by
  rw [ReadsAs, List.map_append, List.map_append]
  exact Reads.append h h'

/-- Between two tags, a text of the request stands for itself. -/
theorem ReadsAs.escaped {cs t' : List Char} {texts tags : List String} (s name : String)
    (closing : List Char) (hc : closing = '<' :: (name.toList ++ '>' :: cs))
    (hn : '>' ∉ name.toList)
    (hcs : ReadsAs [] cs texts tags t') :
    ReadsAs [] (escapedText s ++ closing) (s :: texts) (name :: tags) t' :=
  hc ▸ Reads.escaped s.toList name.toList hn hcs

theorem reads_opening (i : Integration) :
    ReadsAs [] (charsOf (pomLines.take 7) ++ "  <artifactId>".toList ++
        escapedText ((said i.id).getD "integration") ++
        "</artifactId>\n  <version>0.1.0</version>\n  <name>".toList ++ escapedText i.name ++
        "</name>\n".toList)
      (openingTexts i) openingTags ['\n'] := by
  have first : ReadsAs [] (charsOf (pomLines.take 7) ++ "  <artifactId>".toList)
      ((openingTexts i).take 7) (openingTags.take 7) [] := by
    unfold ReadsAs
    simp only [pomLines, List.take, openingTexts, openingTags, List.map_cons, List.map_nil]
    repeat rw [← String.ofList_append]
    repeat rw [charsOf_cons]
    repeat rw [String.toList_ofList]
    rw [charsOf_nil]
    decide +kernel
  have version : ReadsAs [] "\n  <version>0.1.0</version>\n  <name>".toList
      ["\n  ", "0.1.0", "\n  "] ["version", "/version", "name"] [] := by
    unfold ReadsAs
    decide +kernel
  have line : ReadsAs [] "\n".toList [] [] ['\n'] := rfl
  have hid := ReadsAs.escaped ((said i.id).getD "integration") "/artifactId"
    "</artifactId>\n  <version>0.1.0</version>\n  <name>".toList (by decide +kernel)
    (by decide +kernel) version
  have hname := ReadsAs.escaped i.name "/name" "</name>\n".toList (by decide +kernel)
    (by decide +kernel) line
  have h := first.append (hid.append hname)
  simp only [List.append_assoc] at h ⊢
  exact h

theorem reads_description (d : String) :
    ReadsAs ['\n'] ("  <description>".toList ++ escapedText d ++ "</description>\n".toList)
      (descriptionTexts d) descriptionTags ['\n'] := by
  have opens : ReadsAs ['\n'] "  <description>".toList ["\n  "] ["description"] [] := by
    unfold ReadsAs
    decide +kernel
  have line : ReadsAs [] "\n".toList [] [] ['\n'] := rfl
  have text := ReadsAs.escaped d "/description" "</description>\n".toList (by decide +kernel)
    (by decide +kernel) line
  rw [List.append_assoc]
  exact opens.append text

theorem reads_middle :
    ReadsAs ['\n'] (charsOf ((pomLines.drop 13).take 35)) middleTexts middleTags ['\n'] := by
  unfold ReadsAs
  simp only [pomLines, List.take, List.drop, middleTexts, middleTags, List.map_cons, List.map_nil]
  repeat rw [charsOf_cons]
  repeat rw [String.toList_ofList]
  rw [charsOf_nil]
  decide +kernel

theorem reads_dependency (c : Coordinate) :
    ReadsAs ['\n'] (dependencyText c) (dependencyTexts c) dependencyTags ['\n'] := by
  have opens : ReadsAs ['\n'] "    <dependency>\n      <groupId>".toList ["\n    ", "\n      "]
      ["dependency", "groupId"] [] := by
    unfold ReadsAs
    decide +kernel
  have artifact : ReadsAs [] "\n      <artifactId>".toList ["\n      "] ["artifactId"] [] := by
    unfold ReadsAs
    decide +kernel
  have version : ReadsAs [] "\n      <version>".toList ["\n      "] ["version"] [] := by
    unfold ReadsAs
    decide +kernel
  have closes : ReadsAs [] "\n    </dependency>\n".toList ["\n    "] ["/dependency"] ['\n'] := by
    unfold ReadsAs
    decide +kernel
  have hgroup := ReadsAs.escaped c.group "/groupId" "</groupId>\n      <artifactId>".toList
    (by decide +kernel) (by decide +kernel) artifact
  have hartifact := ReadsAs.escaped c.artifact "/artifactId" "</artifactId>\n      <version>".toList
    (by decide +kernel) (by decide +kernel) version
  have hversion := ReadsAs.escaped c.version "/version" "</version>\n    </dependency>\n".toList
    (by decide +kernel) (by decide +kernel) closes
  have h := opens.append (hgroup.append (hartifact.append hversion))
  unfold dependencyText
  simp only [List.append_assoc] at h ⊢
  exact h

theorem reads_dependencies (cs : List Coordinate) :
    ReadsAs ['\n'] (cs.map dependencyText).flatten (cs.flatMap dependencyTexts)
      (List.replicate cs.length dependencyTags).flatten ['\n'] := by
  induction cs with
  | nil => rfl
  | cons c cs ih =>
    rw [List.map_cons, List.flatten_cons, List.flatMap_cons, List.length_cons, List.replicate_succ,
      List.flatten_cons]
    exact (reads_dependency c).append ih

theorem reads_closing :
    ReadsAs ['\n'] (charsOf (pomLines.drop 55)) closingTexts closingTags ['\n'] := by
  unfold ReadsAs
  simp only [pomLines, List.drop, closingTexts, closingTags, List.map_cons, List.map_nil]
  repeat rw [charsOf_cons]
  repeat rw [String.toList_ofList]
  rw [charsOf_nil]
  decide +kernel

theorem reads_descriptor (i : Integration) (dependencies : List Coordinate) :
    ReadsAs [] (descriptor i dependencies) (texts i dependencies)
      (tags (said i.description).isSome dependencies.length) ['\n'] := by
  have description : ReadsAs ['\n']
      ((said i.description).elim [] fun d =>
        "  <description>".toList ++ escapedText d ++ "</description>\n".toList)
      ((said i.description).elim [] descriptionTexts)
      (if (said i.description).isSome then descriptionTags else []) ['\n'] := by
    cases said i.description with
    | none => rfl
    | some d => exact reads_description d
  exact ((((reads_opening i).append description).append reads_middle).append
    (reads_dependencies dependencies)).append reads_closing

end Descriptor

/-! ## The descriptor of an integration -/

/-- A shipped template that the library serves has the text that its nodes render to. -/
theorem Sources.Serves.hasText {src : Sources} {l : Library} {f : String × String}
    {nodes : List Node} {scope : Scope} {cs : List Char} (h : src.Serves l f)
    (hp : Library.parse f.2.toUTF8 = .ok nodes) (hsafe : Library.isSafe f.1 = false)
    (hr : Documents.Renders false scope nodes cs) :
    src.HasText l f.1 scope (String.ofList cs) := by
  obtain ⟨x, l', hx, hn⟩ := h
  have hnodes : nodes = x.nodes := Except.ok.inj (hp.symm.trans hn)
  have hr : renderAll false scope x.nodes = .ok cs := hnodes ▸ hr
  refine ⟨cs, ?_, rfl⟩
  rw [Library.fst_render, hx, hsafe]
  change (renderAll false scope x.nodes).mapError _ = _
  rw [hr]
  rfl

theorem Sources.HasText.render_eq {src : Sources} {l : Library} {name text : String}
    {scope : Scope} (h : src.HasText l name scope text) :
    (l.render src.tree src.cwd name scope).1 = .ok text.toList := by
  obtain ⟨cs, hcs, rfl⟩ := h
  rw [hcs, String.toList_ofList]

/-- The shipped template has one text for an integration. -/
theorem hasText_descriptor {src : Sources} {l : Library} (h : src.Serves l Descriptor.shipped)
    (i : Integration) : src.HasText l descriptorTemplate (descriptorScopeOf i)
      (String.ofList (Documents.descriptor i (Coordinate.collect i.steps).1)) :=
  h.hasText Shipped.parse_descriptor (by decide +kernel) (Documents.renders_descriptor i _)

/-- The build descriptor of an integration is a document whose tags depend only on whether there is
a description and on the number of dependencies, and whose texts, with the entities undone, are
those of the integration and of its dependencies. -/
theorem read_descriptor {c : Compiler} {src : Sources}
    (h : src.Serves c.templates Descriptor.shipped) (i : Integration) :
    ∃ text, (c.descriptor src i).1 = .ok text ∧
      Markup.read? text = some
        { texts := (Descriptor.texts i (Coordinate.collect i.steps).1).map String.toList
          tags := (Descriptor.tags (said i.description).isSome
            (Coordinate.collect i.steps).1.length).map String.toList
          rest := ['\n'] } := by
  refine ⟨_, descriptor_of_hasText (hasText_descriptor h i), ?_⟩
  rw [Markup.read?, String.toList_ofList]
  exact Descriptor.reads_descriptor i _

/-- An integration whose texts look like tags and entities. -/
def hostileIntegration : Integration where
  name := "</name><packaging>&amp;"
  description := some "\"</description>"
  steps :=
    [{ kind := "endpoint", action := some { scheme := "x", dependency := some "<a>:&lt;:]]>" } }]

theorem read_descriptor_hostileIntegration :
    ∃ text, ((Compiler.ofSettings {}).descriptor ⟨Shipped.install FileTree.empty, []⟩
        hostileIntegration).1 = .ok text ∧
      Markup.read? text = some
        { texts := (Descriptor.texts hostileIntegration [⟨"<a>", "&lt;", "]]>"⟩]).map String.toList
          tags := (Descriptor.tags true 1).map String.toList
          rest := ['\n'] } := by
  have serves : Sources.Serves ⟨Shipped.install FileTree.empty, []⟩
      (Compiler.ofSettings {}).templates Descriptor.shipped :=
    Library.servesShipped_ofSettings (s := {}) rfl rfl _
      (by simp [Shipped.files, Descriptor.shipped, descriptorTemplate])
  have collected : (Coordinate.collect hostileIntegration.steps).1 = [⟨"<a>", "&lt;", "]]>"⟩] := by
    decide +kernel
  have h := read_descriptor serves hostileIntegration
  rw [collected] at h
  exact h

end RouteCompiler
