import Mathlib.Data.List.Forall2
import RouteCompiler.Proofs.OrderedMap
import RouteCompiler.Proofs.Traversal
import RouteCompiler.Visitor.Builtin

/-!
Steps compiled by the built-in visitors. None of these visitors ends a traversal early or looks at
the workspace, so a step comes to a value of its own: an error, or an element with the files and the
records that go with it. The flow of a request is compiled step by step.
-/

namespace RouteCompiler

/-- What a step without an error comes to. -/
structure Compiled where
  element : Option Element := none
  files : List (String × ByteArray) := []
  records : List LogRecord := []

namespace Compiled

def record (module message : String) : LogRecord := ⟨.debug, loggerOf (some module), message⟩

def skipped (module message : String) : Compiled where
  records := [record module message]

def endpointStep (x : Context) (i : Nat) (s : Step) : Except Failure Compiled :=
  match s.action, s.connection with
  | some a, some k =>
    match Endpoint.ofStep x s k a with
    | .error e => .error (.compile e)
    | .ok u =>
      .ok
        { element := some (.endpoint u)
          records := [record Endpoint.module s!"  [ENDPOINT] #{i} {u}"] }
  | _, _ => .ok (skipped Endpoint.module s!"  [SKIP] Step #{i} has no action or connection bound")

def filterStep (i : Nat) (s : Step) : Compiled :=
  let e := Text.strip ((s.configured.get? "filter").getD "")
  if e.isEmpty then skipped Filter.module s!"  [SKIP] Filter step #{i} has no expression"
  else { element := some (.filter e) }

def ruleStep (i : Nat) (s : Step) : Except Failure Compiled :=
  match Filter.ruleExpression? s.configured with
  | .error e => .error (e.at i)
  | .ok none => .ok (skipped Filter.module s!"  [SKIP] Rule filter step #{i} has no rules")
  | .ok (some e) => .ok { element := some (.filter e) }

def mapperStep (i : Nat) (s : Step) : Compiled :=
  match Mapper.mapping? s with
  | none => skipped Mapper.module s!"  [SKIP] Mapper step #{i} has no mapping"
  | some m =>
    { element := some (Mapper.element i)
      files := [(Mapper.filePath i, m.toUTF8)]
      records := [record Mapper.module s!"  [MAPPING] #{i} -> {Mapper.fileName i}"] }

/-- What the step at position `i` comes to, by its kind. -/
def ofStep (x : Context) (i : Nat) (s : Step) : Except Failure Compiled :=
  if s.kind = "endpoint" then endpointStep x i s
  else if s.kind = "filter" then .ok (filterStep i s)
  else if s.kind = "rule-filter" then ruleStep i s
  else if s.kind = "log" then .ok { element := some (LogStep.element s.configured) }
  else if s.kind = "mapper" then .ok (mapperStep i s)
  else .error (.compile (.unknownStepKind s.kind))

def addTo (p : Compiled) (w : Workspace) : Workspace :=
  ⟨w.artifacts.insertMany p.files, w.log ++ p.records⟩

end Compiled

/-- A step compiled by the built-in visitor of its kind. -/
def compileStep (x : Context) (c : StepCursor) : Compile (Option Element) :=
  match Registry.find Registry.builtin c.step.kind with
  | .error e => Compile.fail e
  | .ok factory => (factory x).visit c

def compileSteps (x : Context) : List StepCursor → Compile (List Element)
  | [] => pure []
  | c :: cs => do
    let element ← compileStep x c
    return element.toList ++ (← compileSteps x cs)

theorem get?_builtin (kind : String) : OrderedMap.get? Registry.builtin kind =
    if kind = "endpoint" then some Endpoint.visitor
    else if kind = "filter" then some Filter.expressionVisitor
    else if kind = "rule-filter" then some Filter.ruleVisitor
    else if kind = "log" then some LogStep.visitor
    else if kind = "mapper" then some Mapper.visitor
    else none := by
  have h : Registry.builtin.entries =
      [ ("endpoint", Endpoint.visitor), ("filter", Filter.expressionVisitor),
        ("rule-filter", Filter.ruleVisitor), ("log", LogStep.visitor),
        ("mapper", Mapper.visitor) ] := by
    rfl
  simp only [OrderedMap.get?, h, OrderedMap.lookup, eq_comm]

/-- The built-in visitors go on as long as there are steps. -/
theorem continues_builtin {kind : String} {factory : VisitorFactory}
    (h : OrderedMap.get? Registry.builtin kind = some factory) (x : Context) (c : StepCursor) :
    (factory x).continues c = pure c.hasNext := by
  rw [get?_builtin] at h
  repeat' split at h
  case isFalse => simp at h
  all_goals
    obtain rfl := Option.some.inj h
    rfl

/-! ## What the visitors do -/

section
variable (x : Context) (c : StepCursor) (w : Workspace)

theorem runOn_visit_endpoint : ((Endpoint.visitor x).visit c).runOn w =
    match Compiled.endpointStep x c.index c.step with
    | .error e => (.error e, w)
    | .ok p => (.ok p.element, p.addTo w) := by
  simp only [Endpoint.visitor, Visitor.ofVisit, Compiled.endpointStep]
  cases c.step.action with
  | none => rfl
  | some a =>
    cases c.step.connection with
    | none => rfl
    | some k =>
      dsimp only
      cases Endpoint.ofStep x c.step k a <;> rfl

theorem runOn_visit_filter : ((Filter.expressionVisitor x).visit c).runOn w =
    (.ok (Compiled.filterStep c.index c.step).element,
      (Compiled.filterStep c.index c.step).addTo w) := by
  simp only [Filter.expressionVisitor, Visitor.ofVisit, Compiled.filterStep]
  split
  · rfl
  · simp [Compiled.addTo, OrderedMap.insertMany]

theorem runOn_visit_rules : ((Filter.ruleVisitor x).visit c).runOn w =
    match Compiled.ruleStep c.index c.step with
    | .error e => (.error e, w)
    | .ok p => (.ok p.element, p.addTo w) := by
  simp only [Filter.ruleVisitor, Visitor.ofVisit, Compiled.ruleStep]
  cases Filter.ruleExpression? c.step.configured with
  | error e => rfl
  | ok o =>
    cases o with
    | none => rfl
    | some e => simp [Compiled.addTo, OrderedMap.insertMany]

theorem runOn_visit_mapper : ((Mapper.visitor x).visit c).runOn w =
    (.ok (Compiled.mapperStep c.index c.step).element,
      (Compiled.mapperStep c.index c.step).addTo w) := by
  simp only [Mapper.visitor, Visitor.ofVisit, Compiled.mapperStep]
  cases Mapper.mapping? c.step <;> rfl

/-- A step is compiled to its own value, whatever the workspace; a failing step leaves no trace. -/
theorem runOn_compileStep : (compileStep x c).runOn w =
    match Compiled.ofStep x c.index c.step with
    | .error e => (.error e, w)
    | .ok p => (.ok p.element, p.addTo w) := by
  unfold compileStep Compiled.ofStep
  rw [Registry.find, get?_builtin]
  by_cases h₁ : c.step.kind = "endpoint"
  · simp only [h₁, if_true]
    exact runOn_visit_endpoint x c w
  by_cases h₂ : c.step.kind = "filter"
  · simp only [h₂, if_true]
    exact runOn_visit_filter x c w
  by_cases h₃ : c.step.kind = "rule-filter"
  · simp only [h₃, if_true]
    exact runOn_visit_rules x c w
  by_cases h₄ : c.step.kind = "log"
  · simp only [h₄, if_true]
    simp [LogStep.visitor, Visitor.ofVisit, Compiled.addTo, OrderedMap.insertMany]
  by_cases h₅ : c.step.kind = "mapper"
  · simp only [h₅, if_true]
    exact runOn_visit_mapper x c w
  · simp only [h₁, h₂, h₃, h₄, h₅, if_false]
    rfl

end

theorem runOn_compileStep_of_ok {x : Context} {c : StepCursor} {p : Compiled}
    (h : Compiled.ofStep x c.index c.step = .ok p) (w : Workspace) :
    (compileStep x c).runOn w = (.ok p.element, p.addTo w) := by
  rw [runOn_compileStep, h]

theorem runOn_compileStep_of_error {x : Context} {c : StepCursor} {e : Failure}
    (h : Compiled.ofStep x c.index c.step = .error e) (w : Workspace) :
    (compileStep x c).runOn w = (.error e, w) := by
  rw [runOn_compileStep, h]

/-- Steps compile together exactly if each of them compiles, and then to what each comes to. -/
theorem runOn_compileSteps_iff (x : Context) {cs : List StepCursor} {w w' : Workspace}
    {elements : List Element} : (compileSteps x cs).runOn w = (.ok elements, w') ↔
      ∃ ps : List Compiled,
        List.Forall₂ (fun c p => Compiled.ofStep x c.index c.step = .ok p) cs ps ∧
        elements = ps.flatMap (fun p => p.element.toList) ∧
        w' = ps.foldl (fun w p => p.addTo w) w := by
  induction cs generalizing w w' elements with
  | nil =>
    constructor
    · intro h
      cases h
      exact ⟨[], .nil, rfl, rfl⟩
    · rintro ⟨_, ⟨⟩, rfl, rfl⟩
      rfl
  | cons c cs ih =>
    have hc := runOn_compileStep x c w
    constructor
    · intro h
      obtain ⟨element, w₁, h₁, h⟩ := Compile.of_runOn_bind h
      obtain ⟨es, w₂, h₂, h⟩ := Compile.of_runOn_bind h
      obtain ⟨ps, hps, rfl, rfl⟩ := ih.1 h₂
      cases h
      rw [h₁] at hc
      cases hp : Compiled.ofStep x c.index c.step with
      | error e =>
        rw [hp] at hc
        cases hc
      | ok p =>
        rw [hp] at hc
        cases hc
        exact ⟨p :: ps, .cons hp hps, rfl, rfl⟩
    · rintro ⟨_, hps, rfl, rfl⟩
      cases hps with
      | @cons _ p _ ps hp hps =>
        rw [hp] at hc
        rw [compileSteps, Compile.runOn_bind_ok hc,
          Compile.runOn_bind_ok (ih.2 ⟨ps, hps, rfl, rfl⟩)]
        rfl

theorem exists_forall₂ {α β : Type} {R : α → β → Prop} {as : List α} (h : ∀ a ∈ as, ∃ b, R a b) :
    ∃ bs, List.Forall₂ R as bs := by
  induction as with
  | nil => exact ⟨[], .nil⟩
  | cons a as ih =>
    obtain ⟨b, hb⟩ := h a List.mem_cons_self
    obtain ⟨bs, hbs⟩ := ih fun c hc => h c (List.mem_cons_of_mem a hc)
    exact ⟨b :: bs, .cons hb hbs⟩

theorem runOn_compileSteps_ok (x : Context) {cs : List StepCursor}
    (h : ∀ c ∈ cs, ∃ p, Compiled.ofStep x c.index c.step = .ok p) (w : Workspace) :
    ∃ ps : List Compiled, (compileSteps x cs).runOn w =
      (.ok (ps.flatMap fun p => p.element.toList), ps.foldl (fun w p => p.addTo w) w) := by
  obtain ⟨ps, hps⟩ := exists_forall₂ h
  exact ⟨ps, (runOn_compileSteps_iff x).2 ⟨ps, hps, rfl, rfl⟩⟩

/-- The first step that fails decides. -/
theorem runOn_compileSteps_error (x : Context) {before after : List StepCursor} {c : StepCursor}
    {e : Failure} (hb : ∀ d ∈ before, ∃ p, Compiled.ofStep x d.index d.step = .ok p)
    (hc : Compiled.ofStep x c.index c.step = .error e) (w : Workspace) :
    ((compileSteps x (before ++ c :: after)).runOn w).1 = .error e := by
  induction before generalizing w with
  | nil =>
    rw [List.nil_append, compileSteps,
      Compile.runOn_bind_error (runOn_compileStep_of_error hc w)]
  | cons d before ih =>
    obtain ⟨p, hp⟩ := hb d List.mem_cons_self
    have h := ih (fun d' hd' => hb d' (List.mem_cons_of_mem d hd')) (p.addTo w)
    rw [List.cons_append, compileSteps, Compile.runOn_bind_ok (runOn_compileStep_of_ok hp w),
      Compile.runOn_bind]
    cases hr : (compileSteps x (before ++ c :: after)).runOn (p.addTo w) with
    | mk compiled w' =>
      rw [hr] at h
      cases h
      rfl

/-! ## The flow -/

theorem dispatch_builtin (x : Context) (c : StepCursor) (w : Workspace) :
    dispatch Registry.builtin x c w =
      match OrderedMap.get? Registry.builtin c.step.kind with
      | none => (.unknownKind, w)
      | some _ =>
        match (compileStep x c).runOn w with
        | (.error e, w) => (.raised e, w)
        | (.ok element, w) => (.visited element c.hasNext, w) := by
  unfold dispatch compileStep
  rw [Registry.find]
  cases h : OrderedMap.get? Registry.builtin c.step.kind with
  | none => rfl
  | some factory =>
    simp only [continues_builtin h]
    cases ((factory x).visit c).runOn w with
    | mk a w' => cases a <;> rfl

theorem StepCursor.hasNext_of_drop {steps : List Step} {c : StepCursor} {cs : List StepCursor}
    {i : Nat} (h : (places steps).drop i = c :: cs) : c.hasNext = !cs.isEmpty := by
  have hc : (places steps)[i]? = some c := by
    rw [← List.head?_drop, h]
    rfl
  have hd : (places steps).drop (i + 1) = cs := by
    rw [← List.tail_drop, h]
    rfl
  obtain ⟨hs, hi⟩ := eq_of_getElem?_places hc
  have he : cs.isEmpty = decide (steps.length ≤ i + 1) := by
    rw [← hd, Bool.eq_iff_iff]
    simp only [List.isEmpty_iff, List.drop_eq_nil_iff, length_places, decide_eq_true_eq]
  rw [hasNext, hs, hi, he, ← decide_not]
  exact decide_eq_decide.2 Nat.not_le.symm

/-- With the built-in visitors a traversal compiles all steps that are left. -/
theorem conclusion_builtin (x : Context) {steps : List Step} {cs : List StepCursor} {i : Nat}
    (h : (StepCursor.places steps).drop i = cs) (w : Workspace) :
    Dispatch.conclusion w (traceOf Registry.builtin x cs w) = (compileSteps x cs).runOn w := by
  induction cs generalizing i w with
  | nil => rfl
  | cons c cs ih =>
    have hd : (StepCursor.places steps).drop (i + 1) = cs := by
      rw [← List.tail_drop, h]
      rfl
    have hnext := StepCursor.hasNext_of_drop h
    rw [traceOf, compileSteps, Compile.runOn_bind, dispatch_builtin]
    cases hg : OrderedMap.get? Registry.builtin c.step.kind with
    | none =>
      simp only [compileStep, Registry.find, hg]
      rfl
    | some factory =>
      obtain ⟨compiled, w', hr⟩ : ∃ a w', (compileStep x c).runOn w = (a, w') := ⟨_, _, rfl⟩
      cases compiled with
      | error e =>
        simp only [hr]
        rfl
      | ok element =>
        simp only [hr, Outcome.goesOn, hnext]
        cases cs with
        | nil =>
          simp only [List.isEmpty_nil, Bool.not_true, Bool.false_eq_true, if_false]
          rw [Dispatch.conclusion_refused, hnext]
          simp [compileSteps]
        | cons d cs =>
          simp only [List.isEmpty_cons, Bool.not_false, if_true, Compile.runOn_bind]
          rw [Dispatch.conclusion_cons _ rfl, ih hd]
          cases (compileSteps x (d :: cs)).runOn w' with
          | mk es w'' => cases es <;> rfl

/-- The flow of a request is made of its steps one by one. -/
theorem runOn_generateFlow (settings : Settings) (r : FlowRequest) (w : Workspace) :
    (generateFlow Registry.builtin settings r).runOn w =
      (((compileSteps ⟨settings, r⟩ (StepCursor.places r.integration.steps)).runOn w).1.map
          fun steps => ⟨some r.integration.name, steps⟩,
        ((compileSteps ⟨settings, r⟩ (StepCursor.places r.integration.steps)).runOn w).2) := by
  rw [runOn_generateFlow_eq_conclusion]
  simp only [conclusion_builtin _ (List.drop_zero)]

/-- A flow that compiles has the elements of its steps, and is left with what each step adds. -/
theorem runOn_generateFlow_ok_iff {settings : Settings} {r : FlowRequest} {flow : Flow}
    {w w' : Workspace} : (generateFlow Registry.builtin settings r).runOn w = (.ok flow, w') ↔
      ∃ ps : List Compiled,
        List.Forall₂ (fun c p => Compiled.ofStep ⟨settings, r⟩ c.index c.step = .ok p)
          (StepCursor.places r.integration.steps) ps ∧
        flow = ⟨some r.integration.name, ps.flatMap fun p => p.element.toList⟩ ∧
        w' = ps.foldl (fun w p => p.addTo w) w := by
  rw [runOn_generateFlow]
  constructor
  · intro h
    obtain ⟨compiled, w₁, hc⟩ : ∃ a w₁, (compileSteps ⟨settings, r⟩
        (StepCursor.places r.integration.steps)).runOn w = (a, w₁) := ⟨_, _, rfl⟩
    rw [hc] at h
    cases compiled with
    | error e => cases h
    | ok elements =>
      cases h
      obtain ⟨ps, hps, rfl, rfl⟩ := (runOn_compileSteps_iff _).1 hc
      exact ⟨ps, hps, rfl, rfl⟩
  · rintro ⟨ps, hps, rfl, rfl⟩
    rw [(runOn_compileSteps_iff _).2 ⟨ps, hps, rfl, rfl⟩]
    rfl

/-! ## Traces of flows that compile -/

section
variable {x : Context} {c : StepCursor} {w : Workspace} {steps : List Step} {t : List Dispatch}

theorem dispatch_of_compiles {p : Compiled} (h : Compiled.ofStep x c.index c.step = .ok p)
    (w : Workspace) :
    dispatch Registry.builtin x c w = (.visited p.element c.hasNext, p.addTo w) := by
  have hr := runOn_compileStep x c w
  rw [h] at hr
  rw [dispatch_builtin]
  cases hf : OrderedMap.get? Registry.builtin c.step.kind with
  | none =>
    rw [compileStep, Registry.find, hf] at hr
    cases hr
  | some factory => rw [hr]

theorem Dispatch.eq_elements_of_conclusion {es : List Element}
    (h : (Dispatch.conclusion w t).1 = .ok es) : es = Dispatch.elements t := by
  rw [Dispatch.conclusion] at h
  split at h
  · rename_i hl
    obtain rfl : t = [] := List.getLast?_eq_none_iff.1 hl
    cases h
    rfl
  · rename_i d hl
    cases he : d.ending.1 with
    | error e =>
      rw [he] at h
      cases h
    | ok u =>
      rw [he] at h
      cases h
      rfl

namespace IsTrace

theorem getElem?_cursor (h : IsTrace Registry.builtin x (StepCursor.places steps) w t) {i : Nat}
    (hi : i < t.length) : (StepCursor.places steps)[i]? = some t[i].cursor := by
  obtain ⟨rest, hr⟩ := h.inOrder
  rw [← hr, List.getElem?_append_left (by simpa using hi)]
  simp [hi]

/-- Where every step compiles, the visitors go on to the last step. -/
theorem length_eq (h : IsTrace Registry.builtin x (StepCursor.places steps) w t)
    (hc : ∀ c ∈ StepCursor.places steps, ∃ p, Compiled.ofStep x c.index c.step = .ok p) :
    t.length = steps.length := by
  have hle : t.length ≤ steps.length := by
    simpa using h.inOrder.length_le
  refine Nat.le_antisymm hle (Nat.le_of_not_lt fun hlt => ?_)
  obtain ⟨d, hd, hstop⟩ := h.ends (by simpa using hlt)
  obtain ⟨hpos, rfl⟩ : ∃ hpos : t.length - 1 < t.length, t[t.length - 1] = d :=
    List.getElem?_eq_some_iff.1 (List.getLast?_eq_getElem? ▸ hd)
  have hplace := h.getElem?_cursor hpos
  obtain ⟨hsteps, hindex⟩ := StepCursor.eq_of_getElem?_places hplace
  obtain ⟨p, hp⟩ := hc _ (List.mem_of_getElem? hplace)
  have hdis := h.dispatched _ hpos
  rw [dispatch_of_compiles hp] at hdis
  have hnext : t[t.length - 1].cursor.hasNext = true := by
    rw [StepCursor.hasNext, hsteps, hindex, decide_eq_true_eq]
    omega
  rw [← (Prod.mk.inj hdis).1, Outcome.goesOn, hnext] at hstop
  cases hstop

end IsTrace

end

end RouteCompiler
