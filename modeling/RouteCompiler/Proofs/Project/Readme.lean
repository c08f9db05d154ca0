import RouteCompiler.Proofs.Project.Delivery
import RouteCompiler.Proofs.Project.Descriptor

/-!
The description of a project, written out. It has a heading, the description of the integration if
there is one, an introduction, and an entry for every step of the integration, whether the step has
an element of the route or not; what is empty or absent leaves no trace.
-/

namespace RouteCompiler

open Project Template

namespace Readme

/-- The shipped template of project descriptions. -/
def shipped : String × String := ("README.md.jinja", Shipped.textOf Shipped.readmeLines)

/-- The entry of the step at a position that is counted from one. -/
def entry (position : Nat) (s : Step) : String :=
  toString position ++ ". `" ++ s.kind ++ "`" ++
    ((said s.name).elim "" fun name => " " ++ name) ++
    (s.action.elim "" fun a => " (" ++ (said a.name).getD a.scheme ++ ")") ++ "\n"

/-- What stands under the heading of the steps. -/
def entries (steps : List Step) : String :=
  if steps = [] then "This integration has no steps.\n"
  else String.join (steps.mapIdx fun i s => entry (i + 1) s)

def text (i : Integration) : String :=
  "# " ++ i.name ++ "\n" ++
    ((said i.description).elim "" fun description => "\n" ++ description ++ "\n") ++
    "\nThis project was generated by flowgen from the integration\n" ++
    ((said i.id).elim "definition" fun id => "`" ++ id ++ "`") ++ ".\n" ++
    "\n## Steps\n\n" ++ entries i.steps ++
    "\n## Running\n\n    mvn spring-boot:run\n\n" ++
    "The route definition lives in `src/main/resources/flow.yml`.\n"

/-! ## The template writes this text -/

theorem toList_elim {o : Option String} {t : String} {f : String → String} :
    (o.elim t f).toList = o.elim t.toList fun s => (f s).toList := by
  cases o <;> rfl

theorem toList_entry (i : Nat) (s : Step) : (entry (i + 1) s).toList = Documents.stepLine i s := by
  rw [entry, Documents.stepLine]
  cases said s.name <;> cases s.action <;> simp

theorem toList_entries (steps : List Step) :
    (entries steps).toList = Documents.stepsText steps := by
  rw [entries, Documents.stepsText]
  cases steps with
  | nil =>
    have sentence : Shipped.charsOf ((Shipped.readmeLines.drop 15).take 1) =
        "This integration has no steps.\n".toList := by
      decide +kernel
    exact sentence.symm
  | cons s steps =>
    rw [if_neg (List.cons_ne_nil s steps), if_neg (by simp), List.mapIdx_eq_zipIdx_map,
      String.toList_join, List.flatMap_map, List.flatMap_def]
    simp only [toList_entry]

theorem toList_text (i : Integration) : (text i).toList = Documents.readme i := by
  have introduction : Shipped.charsOf ((Shipped.readmeLines.drop 5).take 2) =
      "\nThis project was generated by flowgen from the integration\n".toList := by
    decide +kernel
  have heading : '.' :: '\n' :: Shipped.charsOf ((Shipped.readmeLines.drop 8).take 3) =
      ".\n".toList ++ "\n## Steps\n\n".toList := by
    decide +kernel
  have tail : Shipped.charsOf (Shipped.readmeLines.drop 17) =
      "\n## Running\n\n    mvn spring-boot:run\n\n".toList ++
        "The route definition lives in `src/main/resources/flow.yml`.\n".toList := by
    decide +kernel
  unfold text Documents.readme
  simp only [String.toList_append, toList_entries, toList_elim, introduction, heading, tail,
    List.append_assoc]
  rfl

end Readme

/-- The description of a project is this text: it is what the shipped template is rendered to, and
it stands under its path in the files of every project that is generated. -/
theorem readme_closedForm {c : Compiler} {src : Sources} (hr : c.registry = Registry.builtin)
    (h : src.Serves c.templates Readme.shipped) (r : FlowRequest) :
    (c.templates.render src.tree src.cwd Readme.shipped.1 (requestScope r)).1 =
        .ok (Readme.text r.integration).toList ∧
      ∀ files, (c.generate src r).1 = .ok files →
        files.get? readmePath = some (Readme.text r.integration).toUTF8 := by
  have htext := h.hasText Shipped.parse_readme (by decide +kernel) (Documents.renders_readme r)
  rw [← Readme.toList_text, String.ofList_toList] at htext
  refine ⟨htext.render_eq, fun files hfiles => ?_⟩
  have hmakes := Makes.document (c := c) (f := (readmePath, "README.md.jinja"))
    List.mem_cons_self htext
  exact get?_of_makes hr hfiles hmakes

/-- Its first step has a name and an action that goes by its scheme, its second step has neither. -/
def describedIntegration : Integration where
  id := some "greeting"
  name := "Greeting"
  description := some "Says hello."
  steps :=
    [ { name := some "every minute", kind := "endpoint", action := some { scheme := "timer" } },
      { name := some "", kind := "log" } ]

def describedText : String :=
  "# Greeting\n\nSays hello.\n\n" ++
    "This project was generated by flowgen from the integration\n`greeting`.\n\n" ++
    "## Steps\n\n1. `endpoint` every minute (timer)\n2. `log`\n\n" ++
    "## Running\n\n    mvn spring-boot:run\n\n" ++
    "The route definition lives in `src/main/resources/flow.yml`.\n"

theorem readme_describedIntegration :
    let c := Compiler.ofSettings {}
    let src : Sources := ⟨Shipped.install FileTree.empty, []⟩
    let r : FlowRequest := { integration := describedIntegration }
    (c.templates.render src.tree src.cwd "README.md.jinja" (requestScope r)).1 =
        .ok describedText.toList ∧
      ∃ files, (c.generate src r).1 = .ok files ∧
        files.get? "README.md" = some describedText.toUTF8 := by
  intro c src r
  have servesAll : src.ServesShipped c.templates :=
    Library.servesShipped_ofSettings (s := {}) rfl rfl
  have serves : src.Serves c.templates Readme.shipped :=
    servesAll _ (by simp [Shipped.files, Readme.shipped])
  have compiles : ∀ s ∈ r.integration.steps, ¬ s.Fails r := by decide +kernel
  obtain ⟨files, hfiles, -⟩ := generate_ok (c := c) rfl servesAll rfl compiles
  have htext : Readme.text describedIntegration = describedText := by decide +kernel
  obtain ⟨hrender, hproject⟩ := readme_closedForm rfl serves r
  rw [htext] at hrender hproject
  exact ⟨hrender, files, hfiles, hproject files hfiles⟩

end RouteCompiler
