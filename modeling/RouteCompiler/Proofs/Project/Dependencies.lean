import RouteCompiler.Proofs.Project.Precedence
import Mathlib.Data.List.Induction

/-!
The dependencies of an integration. What is collected from a list of steps is told here by the steps
alone: which coordinates they ask for, where each is first asked for, and which texts are malformed.
No list but one fits that, and it is the one that is collected; how lists go together follows. The
build descriptor has the dependencies of all steps, wherever the traversal of the steps ends.
-/

namespace RouteCompiler

open Project Template

namespace Coordinate

/-! ## What steps ask for -/

/-- The action of the step has this dependency text, which is not empty. -/
def Mentions (s : Step) (text : String) : Prop :=
  ∃ a, s.action = some a ∧ a.dependency = some text ∧ text ≠ ""

def AsksFor (s : Step) (c : Coordinate) : Prop := ∃ text, Mentions s text ∧ parse text = .ok c

theorem textOf_eq_some_iff {s : Step} {text : String} : textOf s = some text ↔ Mentions s text := by
  rw [textOf, Option.filter_eq_some_iff, Option.bind_eq_some_iff, Mentions, ← exists_and_right]
  simp [and_assoc]

/-- The coordinate that a step asks for. -/
def asked? (s : Step) : Option Coordinate := (textOf s).bind fun text => (parse text).toOption

theorem asked?_eq_some_iff {s : Step} {c : Coordinate} : asked? s = some c ↔ AsksFor s c := by
  simp only [asked?, Option.bind_eq_some_iff, AsksFor, textOf_eq_some_iff]
  refine exists_congr fun text => and_congr_right fun _ => ?_
  cases parse text <;> simp [Except.toOption]

/-- The text of a step that is no coordinate. -/
def malformed? (s : Step) : Option String :=
  (textOf s).bind fun text =>
    match parse text with
    | .ok _ => none
    | .error _ => some text

/-- What is logged for a malformed text. -/
def malformedRecord (text : String) : LogRecord :=
  ⟨.warning, "flowgen.gen.dependencies",
    "  [WARN] " ++ ("Malformed dependency coordinate '" ++ text ++
      "' (expected group:artifact:version)") ++ ", skipping."⟩

/-- The position of the first step that asks for a coordinate. -/
def firstMention (steps : List Step) (c : Coordinate) : Nat :=
  steps.findIdx fun s => decide (asked? s = some c)

theorem firstMention_lt_length_iff {steps : List Step} {c : Coordinate} :
    firstMention steps c < steps.length ↔ ∃ s ∈ steps, AsksFor s c := by
  simp only [firstMention, List.findIdx_lt_length, decide_eq_true_iff, asked?_eq_some_iff]

theorem firstMention_append (xs ys : List Step) (c : Coordinate) : firstMention (xs ++ ys) c =
    if firstMention xs c < xs.length then firstMention xs c
    else firstMention ys c + xs.length := List.findIdx_append

/-- The coordinates and the log are those of the steps: each coordinate that is asked for, once, in
the order of first mentions, and a warning for each malformed text. -/
structure Collects (steps : List Step) (cs : List Coordinate) (log : List LogRecord) : Prop where
  nodup : cs.Nodup
  mem_iff : ∀ c, c ∈ cs ↔ ∃ s ∈ steps, AsksFor s c
  ordered : cs.Pairwise fun c d => firstMention steps c < firstMention steps d
  warned : log = (steps.filterMap malformed?).map malformedRecord

variable {steps xs ys : List Step} {cs ds : List Coordinate} {log log' : List LogRecord}

/-- Nothing else fits the steps. -/
theorem Collects.unique (h : Collects steps cs log) (h' : Collects steps ds log') :
    cs = ds ∧ log = log' := by
  have hperm : cs.Perm ds := by
    rw [List.perm_ext_iff_of_nodup h.nodup h'.nodup]
    intro c
    rw [h.mem_iff, h'.mem_iff]
  refine ⟨?_, h.warned.trans h'.warned.symm⟩
  refine hperm.eq_of_pairwise ?_ h.ordered h'.ordered
  intro c d _ _ hcd hdc
  exact absurd hdc (Nat.lt_asymm hcd)

/-- Of what the later steps ask for, the new coordinates come behind the old ones. -/
theorem Collects.append (hx : Collects xs cs log) (hy : Collects ys ds log') :
    Collects (xs ++ ys) (cs ++ ds.filter fun d => decide (d ∉ cs)) (log ++ log') := by
  have hfirst : ∀ c ∈ cs, firstMention (xs ++ ys) c = firstMention xs c ∧
      firstMention xs c < xs.length := by
    intro c hc
    have hlt := firstMention_lt_length_iff.2 ((hx.mem_iff c).1 hc)
    exact ⟨by rw [firstMention_append, if_pos hlt], hlt⟩
  have hnew : ∀ d, d ∉ cs → firstMention (xs ++ ys) d = firstMention ys d + xs.length := by
    intro d hd
    rw [firstMention_append, if_neg]
    intro hlt
    exact hd ((hx.mem_iff d).2 (firstMention_lt_length_iff.1 hlt))
  have hmem : ∀ d, d ∈ ds.filter (fun d => decide (d ∉ cs)) ↔ d ∈ ds ∧ d ∉ cs := by
    intro d
    rw [List.mem_filter, decide_eq_true_iff]
  constructor
  case nodup =>
    refine List.nodup_append.2 ⟨hx.nodup, hy.nodup.filter _, ?_⟩
    intro c hc d hd hcd
    exact ((hmem d).1 hd).2 (hcd ▸ hc)
  case mem_iff =>
    intro c
    have hsplit : (∃ s ∈ xs ++ ys, AsksFor s c) ↔ c ∈ cs ∨ c ∈ ds := by
      rw [hx.mem_iff, hy.mem_iff]
      simp only [List.mem_append, or_and_right, exists_or]
    rw [hsplit, List.mem_append, hmem]
    by_cases hc : c ∈ cs <;> simp [hc]
  case ordered =>
    refine List.pairwise_append.2 ⟨?_, ?_, ?_⟩
    · refine hx.ordered.imp_of_mem fun {c d} hc hd hcd => ?_
      rw [(hfirst c hc).1, (hfirst d hd).1]
      exact hcd
    · refine (hy.ordered.filter _).imp_of_mem fun {c d} hc hd hcd => ?_
      rw [hnew c ((hmem c).1 hc).2, hnew d ((hmem d).1 hd).2]
      exact Nat.add_lt_add_right hcd _
    · intro c hc d hd
      rw [(hfirst c hc).1, hnew d ((hmem d).1 hd).2]
      have hlt := (hfirst c hc).2
      omega
  case warned =>
    rw [hx.warned, hy.warned, List.filterMap_append, List.map_append]

/-! ## What is collected -/

theorem eq_of_parse_eq_error {text : String} {e : CompileError} (h : parse text = .error e) :
    e = .malformedCoordinate text := by
  unfold parse at h
  split at h
  · cases h
  · exact (Except.error.inj h).symm

theorem collectStep_eq (acc : List Coordinate × List LogRecord) (s : Step) :
    collectStep acc s =
      (acc.1 ++ (asked? s).toList.filter fun c => decide (c ∉ acc.1),
        acc.2 ++ (malformed? s).toList.map malformedRecord) := by
  rw [collectStep, asked?, malformed?]
  cases textOf s with
  | none => simp
  | some text =>
    cases hp : parse text with
    | ok c =>
      by_cases hc : c ∈ acc.1 <;> simp [hp, hc, Except.toOption]
    | error e =>
      obtain rfl := eq_of_parse_eq_error hp
      simp [hp, Except.toOption]
      rfl

theorem collects_singleton (s : Step) :
    Collects [s] (asked? s).toList ((malformed? s).toList.map malformedRecord) where
  nodup := by cases asked? s <;> simp
  mem_iff c := by simp [← asked?_eq_some_iff]
  ordered := by cases asked? s <;> simp
  warned := by cases h : malformed? s <;> simp [h]

/-- One step more adds what the step asks for. -/
theorem Collects.collectStep (h : Collects steps cs log) (s : Step) :
    Collects (steps ++ [s]) (collectStep (cs, log) s).1 (collectStep (cs, log) s).2 := by
  rw [collectStep_eq]
  exact h.append (collects_singleton s)

theorem collect_concat (steps : List Step) (s : Step) :
    collect (steps ++ [s]) = Coordinate.collectStep (collect steps) s := by
  rw [collect, List.foldl_append]
  rfl

theorem collects_collect (steps : List Step) :
    Collects steps (collect steps).1 (collect steps).2 := by
  induction steps using List.reverseRecOn with
  | nil => exact ⟨List.nodup_nil, by simp [collect], List.Pairwise.nil, rfl⟩
  | append_singleton steps s ih =>
    rw [collect_concat]
    exact ih.collectStep s

theorem collect_append (xs ys : List Step) :
    collect (xs ++ ys) =
      ((collect xs).1 ++ (collect ys).1.filter fun c => decide (c ∉ (collect xs).1),
        (collect xs).2 ++ (collect ys).2) := by
  obtain ⟨hcs, hlog⟩ :=
    (collects_collect (xs ++ ys)).unique ((collects_collect xs).append (collects_collect ys))
  exact Prod.ext hcs hlog

theorem perm_collect {xs ys : List Step} (h : xs.Perm ys) :
    (collect xs).1.Perm (collect ys).1 ∧ (collect xs).2.Perm (collect ys).2 := by
  have hx := collects_collect xs
  have hy := collects_collect ys
  constructor
  · rw [List.perm_ext_iff_of_nodup hx.nodup hy.nodup]
    intro c
    rw [hx.mem_iff, hy.mem_iff]
    simp only [h.mem_iff]
  · rw [hx.warned, hy.warned]
    exact (h.filterMap _).map _

end Coordinate

/-! ## The build descriptor of a project -/

/-- Whatever the visitors of a compiler are, a project that it makes has the descriptor with the
dependencies of all steps. -/
theorem exists_descriptor_of_generate {c : Compiler} {src : Sources} {r : FlowRequest}
    {files : Artifacts} (h : (c.generate src r).1 = .ok files) :
    ∃ text, files.get? descriptorPath = some text.toUTF8 ∧
      src.HasText c.templates descriptorTemplate (descriptorScopeOf r.integration) text := by
  obtain ⟨_, _, flow, _, w', pom, -, -, -, -, hpom, rfl⟩ := exists_of_generate h
  have hpaths : [flowPath, descriptorPath].Nodup := by decide
  exact ⟨pom, OrderedMap.get?_insertMany_of_mem _ hpaths (by simp), hpom⟩

/-- What is collected from steps is what they ask for, in the order of first mentions, with a
warning for each malformed text. Steps behind others add what is new; steps in another order give
the same in another order. Every project has the dependencies of all its steps in the descriptor,
with any visitors, also such as emit nothing or end the traversal. -/
theorem collects_dependencies (steps : List Step) :
    Coordinate.Collects steps (Coordinate.collect steps).1 (Coordinate.collect steps).2 ∧
    (∀ more, Coordinate.collect (steps ++ more) =
      ((Coordinate.collect steps).1 ++
          (Coordinate.collect more).1.filter fun c => decide (c ∉ (Coordinate.collect steps).1),
        (Coordinate.collect steps).2 ++ (Coordinate.collect more).2)) ∧
    (∀ other, steps.Perm other →
      (Coordinate.collect steps).1.Perm (Coordinate.collect other).1 ∧
        (Coordinate.collect steps).2.Perm (Coordinate.collect other).2) ∧
    ∀ (c : Compiler) src r files, r.integration.steps = steps →
      (c.generate src r).1 = .ok files →
      ∃ text, files.get? descriptorPath = some text.toUTF8 ∧
        src.HasText c.templates descriptorTemplate
          (descriptorScope r.integration (Coordinate.collect steps).1) text := by
  refine ⟨Coordinate.collects_collect steps, Coordinate.collect_append steps, ?_, ?_⟩
  · intro other h
    exact Coordinate.perm_collect h
  · intro c src r files hsteps h
    rw [← hsteps]
    exact exists_descriptor_of_generate h

/-- A step of the kind whose action asks for a dependency. -/
def stepWithDependency (kind dependency : String) : Step where
  kind := kind
  action := some { scheme := "direct", dependency := some dependency }

/-- None of the steps has an endpoint. One text is malformed, one empty, and one comes twice. -/
def dependingSteps : List Step :=
  [ stepWithDependency "filter" "org.acme:search:1.2", stepWithDependency "log" "org.acme:search",
    stepWithDependency "log" "", { kind := "log" },
    stepWithDependency "mapper" "org.acme:stream:2.0",
    stepWithDependency "log" "org.acme:search:1.2" ]

def dependingRequest : FlowRequest where
  integration := { name := "depending", steps := dependingSteps }

theorem collects_dependingSteps :
    Coordinate.collect dependingSteps =
      ([⟨"org.acme", "search", "1.2"⟩, ⟨"org.acme", "stream", "2.0"⟩],
        [Coordinate.malformedRecord "org.acme:search"]) ∧
    (Coordinate.collect dependingSteps).1.Perm (Coordinate.collect dependingSteps.reverse).1 ∧
    ∃ files text, ((Compiler.ofSettings {}).generate ⟨Shipped.install FileTree.empty, []⟩
        dependingRequest).1 = .ok files ∧
      files.get? descriptorPath = some text.toUTF8 ∧
      (Sources.mk (Shipped.install FileTree.empty) []).HasText (Compiler.ofSettings {}).templates
        descriptorTemplate
        (descriptorScope dependingRequest.integration
          [⟨"org.acme", "search", "1.2"⟩, ⟨"org.acme", "stream", "2.0"⟩]) text := by
  have hcollect : Coordinate.collect dependingSteps =
      ([⟨"org.acme", "search", "1.2"⟩, ⟨"org.acme", "stream", "2.0"⟩],
        [Coordinate.malformedRecord "org.acme:search"]) := by
    decide +kernel
  obtain ⟨-, -, hperm, hproject⟩ := collects_dependencies dependingSteps
  have hresources : ∀ res ∈ ([] : List Resource), ∃ f ∈ Shipped.files, res.source = f.1 := by simp
  have hsteps : ∀ s ∈ dependingRequest.integration.steps, ¬ s.Fails dependingRequest := by decide
  obtain ⟨files, h⟩ := exists_generate_installed FileTree.empty [] hresources hsteps
  obtain ⟨text, hget, htext⟩ := hproject _ _ dependingRequest files rfl h
  rw [hcollect] at htext
  exact ⟨hcollect, (hperm _ (List.reverse_perm _).symm).1, files, text, h, hget, htext⟩

end RouteCompiler
