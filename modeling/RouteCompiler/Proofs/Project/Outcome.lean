import RouteCompiler.Proofs.Project.Build

/-!
When a request compiles. A step fails if its kind is not served, if its endpoint has no connector,
or if its rules cannot be used; nothing else can go wrong with the shipped templates. The failure
that is reported is that of the first step that fails.
-/

namespace RouteCompiler

open Project Template

theorem exists_first {α : Type} {p : α → Prop} {l : List α} (h : ∃ a ∈ l, p a) :
    ∃ before a after, l = before ++ a :: after ∧ p a ∧ ∀ b ∈ before, ¬ p b := by
  induction l with
  | nil =>
    obtain ⟨a, ha, -⟩ := h
    cases ha
  | cons b l ih =>
    by_cases hb : p b
    · exact ⟨[], b, l, rfl, hb, by simp⟩
    obtain ⟨a, ha, hp⟩ := h
    obtain rfl | ha := List.mem_cons.1 ha
    · exact absurd hp hb
    obtain ⟨before, a, after, rfl, hpa, hbefore⟩ := ih ⟨a, ha, hp⟩
    refine ⟨b :: before, a, after, rfl, hpa, ?_⟩
    intro d hd
    obtain rfl | hd := List.mem_cons.1 hd
    · exact hb
    · exact hbefore d hd

/-! ## Rules that can be used -/

namespace Rule

/-- An object with a path and an operator, both saying something. -/
def Complete (j : Json) : Prop :=
  ∃ path op, j.member? "path" = some path ∧ path.holds = true ∧
    j.member? "op" = some op ∧ op.holds = true

/-- The text is a JSON list of complete rules. -/
def Lists (text : String) (items : List Json) : Prop :=
  Json.read text = .ok (.arr items) ∧ ∀ j ∈ items, Complete j

theorem complete?_eq_none_iff (j : Json) : complete? j = none ↔ ¬ Complete j := by
  unfold complete? ofJson? Complete
  cases hp : j.member? "path" with
  | none => simp
  | some path =>
    cases ho : j.member? "op" with
    | none => simp
    | some op => simp [Option.filter]

theorem exists_complete? {j : Json} (h : Complete j) : ∃ r, complete? j = some r := by
  cases hj : complete? j with
  | none => exact absurd h ((complete?_eq_none_iff j).1 hj)
  | some r => exact ⟨r, rfl⟩

/-- Complete items are rules, one for one. -/
theorem exists_ofItems {items : List Json} (h : ∀ j ∈ items, Complete j) :
    ∃ rules, ofItems items = .ok rules ∧
      List.Forall₂ (fun j r => complete? j = some r) items rules := by
  obtain ⟨rules, hrules⟩ := exists_forall₂ fun j hj => exists_complete? (h j hj)
  refine ⟨rules, ?_, hrules⟩
  clear h
  induction hrules with
  | nil => rfl
  | cons hj _ ih =>
    simp only [ofItems, hj, ih]
    rfl

/-- The first item that is not complete ends the reading. -/
theorem ofItems_incomplete {before after : List Json} {j : Json}
    (hbefore : ∀ i ∈ before, Complete i) (hj : ¬ Complete j) :
    ofItems (before ++ j :: after) = .error (.wrong (.incomplete j)) := by
  induction before with
  | nil => simp only [List.nil_append, ofItems, (complete?_eq_none_iff j).2 hj]
  | cons i before ih =>
    obtain ⟨r, hr⟩ := exists_complete? (hbefore i List.mem_cons_self)
    have ih := ih fun k hk => hbefore k (List.mem_cons_of_mem i hk)
    simp only [List.cons_append, ofItems, hr, ih]
    rfl

/-- Items are rules as soon as each is complete; otherwise one of them is named. -/
theorem ofItems_cases (items : List Json) :
    ((∀ j ∈ items, Complete j) ∧
      ∃ rules, ofItems items = .ok rules ∧ (rules = [] ↔ items = [])) ∨
    ((¬ ∀ j ∈ items, Complete j) ∧ ∃ j, ofItems items = .error (.wrong (.incomplete j))) := by
  by_cases h : ∀ j ∈ items, Complete j
  · obtain ⟨rules, hrules, hall⟩ := exists_ofItems h
    refine .inl ⟨h, rules, hrules, ?_⟩
    rw [← List.length_eq_zero_iff, ← List.length_eq_zero_iff, hall.length_eq]
  · have hsome : ∃ j ∈ items, ¬ Complete j := by simpa using h
    obtain ⟨before, j, after, rfl, hj, hbefore⟩ := exists_first hsome
    exact .inr ⟨h, j, ofItems_incomplete (fun i hi => Classical.not_not.1 (hbefore i hi)) hj⟩

/-- A text that says something is parsed exactly if it lists complete rules. -/
theorem parse_cases {text : String} (ht : text ≠ "") :
    (∃ items rules, Lists text items ∧ parse (some text) = .ok rules ∧ (rules = [] ↔ items = [])) ∨
    ((∀ items, ¬ Lists text items) ∧ ∃ e, parse (some text) = .error e) := by
  have hf : (some text).filter (fun t => !t.isEmpty) = some text := by
    simp [Option.filter, ht]
  simp only [parse, hf, Lists]
  cases hj : Json.read text with
  | error e => cases e <;> exact .inr ⟨by simp, _, rfl⟩
  | ok j =>
    cases j with
    | arr items =>
      obtain ⟨hall, rules, hr, hn⟩ | ⟨hnot, k, hk⟩ := ofItems_cases items
      · exact .inl ⟨items, rules, ⟨rfl, hall⟩, hr, hn⟩
      · refine .inr ⟨?_, _, hk⟩
        rintro _ ⟨h, hall⟩
        cases h
        exact hnot hall
    | null | bool _ | int _ | float _ | str _ | obj _ => exact .inr ⟨by simp, _, rfl⟩

end Rule

namespace Filter

/-- The text of the rules says something but lists no complete rules, or the rules it lists are
joined by a word that is no predicate. -/
def RulesFail (configured : PropertyMap) : Prop :=
  ∃ text, configured.get? "rules" = some text ∧ text ≠ "" ∧
    ((∀ items, ¬ Rule.Lists text items) ∨
      ∃ items, Rule.Lists text items ∧ items ≠ [] ∧
        Text.upper ((configured.get? "predicate").getD "AND") ∉ predicateNames)

theorem ofWord?_eq_none_iff (w : String) : Predicate.ofWord? w = none ↔ w ∉ predicateNames := by
  rw [Predicate.ofWord?]
  by_cases ha : w = "AND"
  · simp [ha, predicateNames]
  by_cases ho : w = "OR"
  · simp [ho, predicateNames]
  · simp [ha, ho, predicateNames]

theorem ruleExpression?_of_parse_nil (configured : PropertyMap)
    (h : Rule.parse (configured.get? "rules") = .ok []) :
    ruleExpression? configured = .ok none := by
  rw [ruleExpression?, h]
  rfl

theorem ruleExpression?_of_parse_error (configured : PropertyMap) {e : RuleFailure}
    (h : Rule.parse (configured.get? "rules") = .error e) :
    ruleExpression? configured = .error e := by
  rw [ruleExpression?, h]
  rfl

theorem ruleExpression?_of_parse_ok {configured : PropertyMap} {rules : List Rule}
    (h : Rule.parse (configured.get? "rules") = .ok rules) (hn : rules ≠ []) :
    (∃ e, ruleExpression? configured = .error e) ↔
      Text.upper ((configured.get? "predicate").getD "AND") ∉ predicateNames := by
  rw [← ofWord?_eq_none_iff, ruleExpression?, h]
  cases rules with
  | nil => exact absurd rfl hn
  | cons r rules =>
    simp only [bind, Except.bind]
    cases Predicate.ofWord? (Text.upper ((configured.get? "predicate").getD "AND")) with
    | none => simp
    | some p => simp [pure, Except.pure]

theorem ruleExpression?_error_iff (configured : PropertyMap) :
    (∃ e, ruleExpression? configured = .error e) ↔ RulesFail configured := by
  rw [RulesFail]
  cases hr : configured.get? "rules" with
  | none => simp [ruleExpression?_of_parse_nil configured (by rw [hr]; rfl)]
  | some text =>
    by_cases ht : text = ""
    · subst ht
      have h : Rule.parse (some "") = .ok [] := by simp [Rule.parse, Option.filter]
      simp [ruleExpression?_of_parse_nil configured (by rw [hr, h])]
    obtain ⟨items, rules, hl, hp, hn⟩ | ⟨hnot, e, he⟩ := Rule.parse_cases ht
    · -- the items are those of the text, so only the predicate is left to ask about
      have hu : ∀ items', Rule.Lists text items' → items' = items := by
        intro items' hl'
        have h := hl'.1.symm.trans hl.1
        cases h
        rfl
      by_cases hi : items = []
      · have h := ruleExpression?_of_parse_nil configured (by rw [hr, hp, hn.2 hi])
        constructor
        · rintro ⟨e, he⟩
          rw [h] at he
          cases he
        · rintro ⟨_, ⟨⟩, -, h | ⟨items', hl', hne, -⟩⟩
          · exact absurd hl (h items)
          · exact absurd ((hu items' hl').trans hi) hne
      · rw [ruleExpression?_of_parse_ok (by rw [hr, hp]) fun h => hi (hn.1 h)]
        constructor
        · intro h
          exact ⟨text, rfl, ht, .inr ⟨items, hl, hi, h⟩⟩
        · rintro ⟨_, ⟨⟩, -, h | ⟨items', -, -, h⟩⟩
          · exact absurd hl (h items)
          · exact h
    · have h := ruleExpression?_of_parse_error configured (by rw [hr, he])
      constructor
      · intro _
        exact ⟨text, rfl, ht, .inl hnot⟩
      · intro _
        exact ⟨e, h⟩

end Filter

/-! ## Steps that fail -/

namespace Endpoint

theorem connector_missing_iff (r : FlowRequest) (id : Option String) :
    (id.filter fun i => !i.isEmpty).bind r.connectors.get? = none ↔
      ∀ i, id = some i → i = "" ∨ i ∉ r.connectors.keys := by
  cases id with
  | none => simp
  | some i =>
    by_cases hi : i = ""
    · subst hi
      simp [Option.filter]
    · have hk := OrderedMap.contains_iff_mem_keys r.connectors i
      rw [OrderedMap.contains, Option.isSome_iff_ne_none] at hk
      simp [Option.filter, hi, ← hk]

theorem connectorOf_error_iff (r : FlowRequest) (k : Connection) (a : Action)
    (e : CompileError) :
    connectorOf r k a = .error e ↔
      (∀ i, connectorId k a = some i → i = "" ∨ i ∉ r.connectors.keys) ∧
        e = .connectorNotFound (connectorId k a) := by
  rw [← connector_missing_iff, connectorOf]
  cases ((connectorId k a).filter fun i => !i.isEmpty).bind r.connectors.get? with
  | some c => simp
  | none =>
    constructor
    · intro h
      cases h
      exact ⟨rfl, rfl⟩
    · rintro ⟨-, rfl⟩
      rfl

/-- Past its connector an endpoint cannot fail. -/
theorem ofStep_error_iff (x : Context) (s : Step) (k : Connection) (a : Action) (e : CompileError) :
    ofStep x s k a = .error e ↔ connectorOf x.request k a = .error e := by
  rw [ofStep]
  cases connectorOf x.request k a with
  | error e' => simp [bind, Except.bind]
  | ok c => simp [bind, Except.bind, pure, Except.pure]

end Endpoint

namespace Step

/-- The connector an endpoint step asks for: its connection's, or the action's where the connection
says nothing. -/
def connectorId (k : Connection) (a : Action) : Option String :=
  if k.connectorId = none ∨ k.connectorId = some "" then a.connectorId else k.connectorId

theorem connectorId_eq (k : Connection) (a : Action) :
    connectorId k a = Endpoint.connectorId k a := by
  unfold connectorId Endpoint.connectorId
  cases k.connectorId with
  | none => rfl
  | some id => by_cases h : id = "" <;> simp [h, Option.filter]

/-- A step fails if its kind is not served, if it is an endpoint whose connector is not there, or if
it is a filter whose rules cannot be used. -/
def Fails (r : FlowRequest) (s : Step) : Prop :=
  s.kind ∉ Registry.builtin.keys ∨
  (s.kind = "endpoint" ∧ ∃ k a, s.connection = some k ∧ s.action = some a ∧
    ∀ id, connectorId k a = some id → id = "" ∨ id ∉ r.connectors.keys) ∨
  (s.kind = "rule-filter" ∧ Filter.RulesFail s.configured)

/-- How the failure of the step at a position is reported. Rules beyond the limits of their reader
are not reported with a position. -/
inductive Report (s : Step) (position : Nat) : Failure → Prop
  | unknownKind (h : s.kind ∉ Registry.builtin.keys) :
      Report s position (.compile (.unknownStepKind s.kind))
  | noConnector {k : Connection} {a : Action} (hs : s.kind = "endpoint")
      (hk : s.connection = some k) (ha : s.action = some a) :
      Report s position (.compile (.connectorNotFound (connectorId k a)))
  | rules {cause : RuleError} (hs : s.kind = "rule-filter")
      (hc : Filter.ruleExpression? s.configured = .error (.wrong cause)) :
      Report s position (.compile (.rules position cause))
  | limits {b : Breakdown} (hs : s.kind = "rule-filter")
      (hc : Filter.ruleExpression? s.configured = .error (.breakdown b)) :
      Report s position (.breakdown b)

theorem keys_builtin : Registry.builtin.keys =
    ["endpoint", "filter", "rule-filter", "log", "mapper"] := rfl

theorem endpointStep_error_iff (x : Context) (i : Nat) (s : Step) (e : Failure) :
    Compiled.endpointStep x i s = .error e ↔
      ∃ k a, s.connection = some k ∧ s.action = some a ∧
        (∀ id, connectorId k a = some id → id = "" ∨ id ∉ x.request.connectors.keys) ∧
        e = .compile (.connectorNotFound (connectorId k a)) := by
  rw [Compiled.endpointStep]
  cases s.action with
  | none => simp
  | some a =>
    cases s.connection with
    | none => simp
    | some k =>
      have h (e : CompileError) := Endpoint.connectorOf_error_iff x.request k a e
      simp only [← Endpoint.ofStep_error_iff x s, ← connectorId_eq] at h
      constructor
      · intro he
        cases hu : Endpoint.ofStep x s k a with
        | ok u =>
          simp only [hu] at he
          cases he
        | error e' =>
          simp only [hu] at he
          cases he
          obtain ⟨hid, rfl⟩ := (h e').1 hu
          exact ⟨k, a, rfl, rfl, hid, rfl⟩
      · rintro ⟨_, _, ⟨⟩, ⟨⟩, hid, rfl⟩
        simp only [(h _).2 ⟨hid, rfl⟩]

theorem ruleStep_error_iff (i : Nat) (s : Step) (e : Failure) :
    Compiled.ruleStep i s = .error e ↔
      ∃ cause, Filter.ruleExpression? s.configured = .error cause ∧ e = cause.at i := by
  rw [Compiled.ruleStep]
  cases Filter.ruleExpression? s.configured with
  | error cause => simp [eq_comm]
  | ok o => cases o <;> simp

/-- An endpoint fails and reports for want of its connector alone. -/
theorem fails_report_endpoint {r : FlowRequest} {i : Nat} {s : Step} {e : Failure}
    (hs : s.kind = "endpoint") :
    s.Fails r ∧ s.Report i e ↔ ∃ k a, s.connection = some k ∧ s.action = some a ∧
      (∀ id, connectorId k a = some id → id = "" ∨ id ∉ r.connectors.keys) ∧
      e = .compile (.connectorNotFound (connectorId k a)) := by
  constructor
  · rintro ⟨hf | ⟨-, k, a, hk, ha, hid⟩ | ⟨h, -⟩, hr⟩
    · simp [hs, keys_builtin] at hf
    · refine ⟨k, a, hk, ha, hid, ?_⟩
      cases hr with
      | unknownKind h => simp [hs, keys_builtin] at h
      | noConnector _ hk' ha' =>
        rw [hk] at hk'
        rw [ha] at ha'
        cases hk'
        cases ha'
        rfl
      | rules h _ | limits h _ => simp [hs] at h
    · simp [hs] at h
  · rintro ⟨k, a, hk, ha, hid, rfl⟩
    exact ⟨.inr (.inl ⟨hs, k, a, hk, ha, hid⟩), .noConnector hs hk ha⟩

theorem report_rules {i : Nat} {s : Step} {cause : RuleFailure} (hs : s.kind = "rule-filter")
    (hc : Filter.ruleExpression? s.configured = .error cause) : s.Report i (cause.at i) := by
  cases cause with
  | wrong _ => exact .rules hs hc
  | breakdown _ => exact .limits hs hc

/-- A filter by rules fails and reports for the sake of its rules alone. -/
theorem fails_report_rules {r : FlowRequest} {i : Nat} {s : Step} {e : Failure}
    (hs : s.kind = "rule-filter") :
    s.Fails r ∧ s.Report i e ↔
      ∃ cause, Filter.ruleExpression? s.configured = .error cause ∧ e = cause.at i := by
  constructor
  · rintro ⟨-, hr⟩
    cases hr with
    | unknownKind h => simp [hs, keys_builtin] at h
    | noConnector h _ _ => simp [hs] at h
    | rules _ hc | limits _ hc => exact ⟨_, hc, rfl⟩
  · rintro ⟨cause, hc, rfl⟩
    exact ⟨.inr (.inr ⟨hs, (Filter.ruleExpression?_error_iff _).1 ⟨cause, hc⟩⟩), report_rules hs hc⟩

theorem fails_report_unknownKind {r : FlowRequest} {i : Nat} {s : Step} {e : Failure}
    (hs : s.kind ∉ Registry.builtin.keys) :
    s.Fails r ∧ s.Report i e ↔ e = .compile (.unknownStepKind s.kind) := by
  constructor
  · rintro ⟨-, hr⟩
    cases hr with
    | unknownKind _ => rfl
    | noConnector h _ _ => simp [h, keys_builtin] at hs
    | rules h _ | limits h _ => simp [h, keys_builtin] at hs
  · rintro rfl
    exact ⟨.inl hs, .unknownKind hs⟩

/-- The built-in visitors fail on the failing steps and on no others. -/
theorem ofStep_error_iff (x : Context) (i : Nat) (s : Step) (e : Failure) :
    Compiled.ofStep x i s = .error e ↔ s.Fails x.request ∧ s.Report i e := by
  rw [Compiled.ofStep]
  by_cases h₁ : s.kind = "endpoint"
  · rw [if_pos h₁, endpointStep_error_iff, fails_report_endpoint h₁]
  by_cases h₃ : s.kind = "rule-filter"
  · rw [if_neg h₁, if_neg (by simp [h₃]), if_pos h₃, ruleStep_error_iff, fails_report_rules h₃]
  by_cases hk : s.kind ∈ Registry.builtin.keys
  · -- the other visitors have no way to fail
    have hn : ¬ s.Fails x.request := by
      rintro (h | ⟨h, -⟩ | ⟨h, -⟩)
      · exact h hk
      · exact h₁ h
      · exact h₃ h
    simp only [keys_builtin, List.mem_cons, h₁, h₃, List.not_mem_nil, or_false, false_or] at hk
    rcases hk with hk | hk | hk <;> simp [hk, hn]
  · rw [fails_report_unknownKind hk]
    simp only [keys_builtin, List.mem_cons, List.not_mem_nil, or_false, not_or] at hk
    obtain ⟨-, h₂, -, h₄, h₅⟩ := hk
    rw [if_neg h₁, if_neg h₂, if_neg h₃, if_neg h₄, if_neg h₅]
    simp [eq_comm]

theorem exists_report (x : Context) (i : Nat) {s : Step} (h : s.Fails x.request) :
    ∃ e, s.Report i e := by
  obtain h | ⟨h, k, a, hk, ha, -⟩ | ⟨h, hr⟩ := h
  · exact ⟨_, .unknownKind h⟩
  · exact ⟨_, .noConnector h hk ha⟩
  · obtain ⟨cause, hc⟩ := (Filter.ruleExpression?_error_iff _).2 hr
    exact ⟨_, report_rules h hc⟩

theorem compiles_of_not_fails (x : Context) (i : Nat) {s : Step} (h : ¬ s.Fails x.request) :
    ∃ p, Compiled.ofStep x i s = .ok p := by
  cases hp : Compiled.ofStep x i s with
  | ok p => exact ⟨p, rfl⟩
  | error e => exact absurd ((ofStep_error_iff x i s e).1 hp).1 h

theorem not_fails_of_compiles {x : Context} {i : Nat} {s : Step} {p : Compiled}
    (hp : Compiled.ofStep x i s = .ok p) : ¬ s.Fails x.request := by
  intro h
  obtain ⟨e, he⟩ := exists_report x i h
  rw [(ofStep_error_iff x i s e).2 ⟨h, he⟩] at hp
  cases hp

/-- Failing can be decided by compiling. -/
instance decidableFails (r : FlowRequest) (s : Step) : Decidable (s.Fails r) :=
  match h : Compiled.ofStep ⟨{}, r⟩ 0 s with
  | .error e => .isTrue ((ofStep_error_iff ⟨{}, r⟩ 0 s e).1 h).1
  | .ok _ => .isFalse (not_fails_of_compiles h)

end Step

/-! ## Requests that compile -/

namespace StepCursor

theorem places_append (before after : List Step) (s : Step) :
    ∃ head tail : List StepCursor, (∀ c ∈ head, c.step ∈ before) ∧
      places (before ++ s :: after) = head ++
        ⟨before.length + 1, s, before ++ s :: after, Nat.le_add_left 1 _⟩ :: tail := by
  rw [places]
  rw [List.mapIdx_append, List.mapIdx_cons]
  refine ⟨_, _, ?_, by rw [Nat.zero_add]⟩
  intro c hc
  obtain ⟨i, hi, rfl⟩ := List.mem_mapIdx.1 hc
  exact List.getElem_mem hi

theorem step_mem_of_mem_places {steps : List Step} {c : StepCursor} (h : c ∈ places steps) :
    c.step ∈ steps := by
  obtain ⟨i, hi, rfl⟩ := List.mem_mapIdx.1 h
  exact List.getElem_mem hi

end StepCursor

section
variable {c : Compiler} {src : Sources}

/-- Steps of which none fails compile together. -/
theorem runOn_compileSteps_of_not_fails (settings : Settings) {r : FlowRequest}
    (hs : ∀ s ∈ r.integration.steps, ¬ s.Fails r) (w : Workspace) :
    ∃ ps : List Compiled,
      (compileSteps ⟨settings, r⟩ (StepCursor.places r.integration.steps)).runOn w =
        (.ok (ps.flatMap fun p => p.element.toList), ps.foldl (fun w p => p.addTo w) w) := by
  refine runOn_compileSteps_ok _ (fun d hd => ?_) w
  exact Step.compiles_of_not_fails _ d.index (hs _ (StepCursor.step_mem_of_mem_places hd))

/-- Without additional resources the steps alone decide. -/
theorem generate_of_no_resources (hr : c.registry = Registry.builtin)
    (ht : src.ServesShipped c.templates) (hn : c.settings.templates.resources = []) :
    ∃ start : Integration → Workspace,
      (∀ i, (start i).artifacts = OrderedMap.ofList (requestDocuments i)) ∧
      ∀ r : FlowRequest,
        let compiled := (compileSteps ⟨c.settings, r⟩
          (StepCursor.places r.integration.steps)).runOn (start r.integration)
        (c.generate src r).1 = compiled.1.map fun elements => compiled.2.artifacts.insertMany
          (closingDocuments r.integration ⟨some r.integration.name, elements⟩) := by
  obtain ⟨records, entry, l₁, l₂, -, -, hrun⟩ := runOn_buildDocuments ht
  let start (i : Integration) : Workspace :=
    ⟨OrderedMap.ofList (requestDocuments i), startRecord i :: records⟩
  refine ⟨start, fun _ => rfl, fun r => ?_⟩
  have h : (c.generate src r).1 = ((buildDocuments src c.settings Registry.builtin r).runOn
      ⟨⟨{}, [startRecord r.integration]⟩, c.templates⟩).1 := by
    rw [Compiler.generate, Build.runWith_eq, hr, buildProject_eq, hn]
    rfl
  have hw : (⟨{}, [startRecord r.integration]⟩ : Workspace).extend
      (requestDocuments r.integration) records = start r.integration := rfl
  rw [h, hrun, hw]
  cases (compileSteps ⟨c.settings, r⟩ (StepCursor.places r.integration.steps)).runOn
      (start r.integration) with
  | mk compiled w => cases compiled <;> rfl

/-- The files made for every request. -/
def Project.generatedPaths : List String :=
  [readmePath, applicationPath, propertiesPath, flowPath, descriptorPath]

theorem contains_insertMany {files : List (String × ByteArray)} {m : Artifacts} {p : String}
    (h : m.contains p = true ∨ p ∈ files.map Prod.fst) :
    (m.insertMany files).contains p = true := by
  induction files generalizing m with
  | nil => simpa [OrderedMap.insertMany] using h
  | cons f files ih =>
    refine ih (m := m.insert f.1 f.2) ?_
    rw [List.map_cons, List.mem_cons] at h
    unfold OrderedMap.contains at h ⊢
    rw [OrderedMap.get?_insert]
    by_cases hf : f.1 = p
    · simp [hf]
    · obtain h | h | h := h
      · exact .inl (by simpa [hf] using h)
      · exact absurd h.symm hf
      · exact .inr h

theorem contains_foldl_addTo {ps : List Compiled} {w : Workspace} {p : String}
    (h : w.artifacts.contains p = true) :
    (ps.foldl (fun w q => q.addTo w) w).artifacts.contains p = true := by
  induction ps generalizing w with
  | nil => exact h
  | cons q ps ih => exact ih (contains_insertMany (.inl h))

/-- If no step fails, all files are there. -/
theorem generate_ok (hr : c.registry = Registry.builtin) (ht : src.ServesShipped c.templates)
    (hn : c.settings.templates.resources = []) {r : FlowRequest}
    (hs : ∀ s ∈ r.integration.steps, ¬ s.Fails r) :
    ∃ files, (c.generate src r).1 = .ok files ∧
      ∀ p ∈ generatedPaths, files.contains p = true := by
  obtain ⟨start, hstart, hg⟩ := generate_of_no_resources hr ht hn
  obtain ⟨ps, hps⟩ := runOn_compileSteps_of_not_fails c.settings hs (start r.integration)
  refine ⟨_, by rw [hg, hps]; rfl, fun p hp => contains_insertMany ?_⟩
  simp only [generatedPaths, List.mem_cons, List.not_mem_nil, or_false] at hp
  rw [← or_assoc, ← or_assoc] at hp
  obtain hp | hp := hp
  · refine .inl (contains_foldl_addTo ?_)
    rw [hstart]
    exact contains_insertMany (.inr (by simpa [requestDocuments, or_assoc] using hp))
  · exact .inr (by simpa [closingDocuments] using hp)

/-- The first step that fails is the one that is reported. -/
theorem generate_error (hr : c.registry = Registry.builtin) (ht : src.ServesShipped c.templates)
    (hn : c.settings.templates.resources = []) {r : FlowRequest} {before after : List Step}
    {s : Step} (hsteps : r.integration.steps = before ++ s :: after) (hf : s.Fails r)
    (hb : ∀ b ∈ before, ¬ b.Fails r) :
    ∃ e, s.Report (before.length + 1) e ∧ (c.generate src r).1 = .error e := by
  obtain ⟨start, -, hg⟩ := generate_of_no_resources hr ht hn
  obtain ⟨e, he⟩ := Step.exists_report ⟨c.settings, r⟩ (before.length + 1) hf
  obtain ⟨head, tail, hhead, hplaces⟩ := StepCursor.places_append before after s
  rw [← hsteps] at hplaces
  have hc : ∀ d ∈ head, ∃ p, Compiled.ofStep ⟨c.settings, r⟩ d.index d.step = .ok p := fun d hd =>
    Step.compiles_of_not_fails ⟨c.settings, r⟩ d.index (hb _ (hhead d hd))
  refine ⟨e, he, ?_⟩
  rw [hg, hplaces, runOn_compileSteps_error _ hc ((Step.ofStep_error_iff _ _ _ _).2 ⟨hf, he⟩)]
  rfl

end

/-- A request fails to compile exactly if one of its steps fails. The report is that of the first
such step, with its position; without one, all generated files are there. -/
theorem generate_fails_at_first_failing_step {c : Compiler} {src : Sources}
    (hr : c.registry = Registry.builtin) (ht : src.ServesShipped c.templates)
    (hn : c.settings.templates.resources = []) (r : FlowRequest) :
    ((∃ e, (c.generate src r).1 = .error e) ↔ ∃ s ∈ r.integration.steps, s.Fails r) ∧
    (∀ before s after, r.integration.steps = before ++ s :: after → s.Fails r →
      (∀ b ∈ before, ¬ b.Fails r) →
      ∃ e, s.Report (before.length + 1) e ∧ (c.generate src r).1 = .error e) ∧
    ((∀ s ∈ r.integration.steps, ¬ s.Fails r) →
      ∃ files, (c.generate src r).1 = .ok files ∧
        ∀ p ∈ generatedPaths, files.contains p = true) := by
  refine ⟨⟨?_, ?_⟩, fun _ _ _ hs hf hb => generate_error hr ht hn hs hf hb, generate_ok hr ht hn⟩
  · rintro ⟨e, he⟩
    refine Classical.byContradiction ?_
    intro h
    obtain ⟨files, hf, -⟩ := generate_ok hr ht hn fun s hs hfail => h ⟨s, hs, hfail⟩
    rw [hf] at he
    cases he
  · intro h
    obtain ⟨before, s, after, hs, hf, hb⟩ := exists_first h
    obtain ⟨e, -, he⟩ := generate_error hr ht hn hs hf hb
    exact ⟨_, he⟩

/-- An endpoint step whose connector is not there. -/
def detachedStep : Step where
  kind := "endpoint"
  connection := some {}
  action := some { scheme := "timer", connectorId := some "timer" }

/-- Its second step has no connector, and the kind of its third is not served. -/
def twiceFailing : FlowRequest where
  integration :=
    { name := "greeting", steps := [{ kind := "log" }, detachedStep, { kind := "teleport" }] }

theorem generate_twiceFailing :
    ((Compiler.ofSettings {}).generate ⟨Shipped.install FileTree.empty, []⟩ twiceFailing).1 =
      .error (.compile (.connectorNotFound (some "timer"))) := by
  have hf : detachedStep.Fails twiceFailing :=
    .inr (.inl ⟨rfl, _, _, rfl, rfl, fun id _ => .inr List.not_mem_nil⟩)
  have hlog : ∀ b ∈ [({ kind := "log" } : Step)], ¬ b.Fails twiceFailing := by
    intro b hb
    rw [List.mem_singleton.1 hb]
    rintro (h | ⟨h, -⟩ | ⟨h, -⟩)
    · exact h (by decide)
    · exact absurd h (by decide)
    · exact absurd h (by decide)
  have ht : Sources.ServesShipped ⟨Shipped.install FileTree.empty, []⟩
      (Compiler.ofSettings {}).templates := Library.servesShipped_ofSettings (s := {}) rfl rfl
  obtain ⟨e, hr, he⟩ := (generate_fails_at_first_failing_step rfl ht rfl twiceFailing).2.1
    [{ kind := "log" }] detachedStep [{ kind := "teleport" }] rfl hf hlog
  rw [he]
  cases hr with
  | unknownKind h => exact absurd h (by decide)
  | noConnector _ hk ha =>
    cases hk
    cases ha
    rfl
  | rules h _ | limits h _ => exact absurd h (by decide)

end RouteCompiler
