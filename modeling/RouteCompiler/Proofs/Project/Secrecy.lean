import RouteCompiler.Proofs.Agreement
import RouteCompiler.Proofs.Project.Build

/-!
Noninterference. Two requests that agree but for values configured at hidden keys of endpoint steps
are compiled to the same project, or fail in the same way, and log the same: what an endpoint keeps
of such values is nothing, and no document shows configured values.
-/

namespace RouteCompiler

open List (Forall₂)
open Project Template

/-! ## Requests that agree -/

structure Connection.Agree (hidden : String → Prop) (c c' : Connection) : Prop where
  id : c.id = c'.id
  name : c.name = c'.name
  connectorId : c.connectorId = c'.connectorId
  configured : c.configured.Agree hidden c'.configured

structure Step.Agree (hidden : String → Prop) (s s' : Step) : Prop where
  id : s.id = s'.id
  name : s.name = s'.name
  kind : s.kind = s'.kind
  action : s.action = s'.action
  connection : Option.Rel (Connection.Agree hidden) s.connection s'.connection
  configured : s.configured.Agree hidden s'.configured

/-- A key hidden at a step: the step is an endpoint, and the key hidden for its action and the
connector it resolves to. -/
def Step.Hidden (masking : Bool) (r : FlowRequest) (s : Step) (key : String) : Prop :=
  s.kind = "endpoint" ∧ ∀ c a k, s.connection = some c → s.action = some a →
    Endpoint.connectorOf r c a = .ok k → Endpoint.Hidden masking k a key

/-- Requests that differ in values configured at hidden keys only. -/
structure FlowRequest.Agree (masking : Bool) (r r' : FlowRequest) : Prop where
  id : r.integration.id = r'.integration.id
  name : r.integration.name = r'.integration.name
  description : r.integration.description = r'.integration.description
  connectors : r.connectors = r'.connectors
  steps : Forall₂ (fun s s' => s.Agree (s.Hidden masking r) s')
    r.integration.steps r'.integration.steps

/-! ## Steps that agree compile to the same -/

namespace Endpoint

variable {r r' : FlowRequest} {s s' : Step} {c c' : Connection} {a : Action}

theorem connectorOf_eq (hr : r.connectors = r'.connectors) (hc : c.connectorId = c'.connectorId) :
    connectorOf r c a = connectorOf r' c' a := by
  simp only [connectorOf, connectorId, hr, hc]

theorem ofStep_eq (settings : Settings) {hidden : String → Prop}
    (hr : r.connectors = r'.connectors) (hc : c.Agree hidden c')
    (hs : s.configured.Agree hidden s'.configured)
    (hh : ∀ k, connectorOf r c a = .ok k → ∀ key, hidden key →
      Hidden settings.maskSecrets k a key) :
    ofStep ⟨settings, r⟩ s c a = ofStep ⟨settings, r'⟩ s' c' a := by
  simp only [ofStep]
  rw [connectorOf_eq hr hc.connectorId] at hh ⊢
  cases hk : connectorOf r' c' a with
  | error e => rfl
  | ok k =>
    have hm := hc.configured.overlay hs
    have hown : ownScheme c a = ownScheme c' a := by simp only [ownScheme, hc.id]
    simp only [bind, Except.bind, hm.hasComponentLevel_eq, hown]
    replace hm := hm.mono (hh k hk)
    cases hmask : settings.maskSecrets with
    | true =>
      rw [hmask] at hm
      simp only [if_true, maskSecrets_options_eq hm]
    | false =>
      rw [hmask] at hm
      simp only [Bool.false_eq_true, if_false, options_eq hm]

end Endpoint

namespace Compiled

variable {settings : Settings} {r r' : FlowRequest} {s s' : Step}

theorem endpointStep_eq (hr : r.connectors = r'.connectors)
    (h : s.Agree (s.Hidden settings.maskSecrets r) s') (i : Nat) :
    endpointStep ⟨settings, r⟩ i s = endpointStep ⟨settings, r'⟩ i s' := by
  simp only [endpointStep]
  have hc := h.connection
  rw [← h.action]
  cases ha : s.action with
  | none => rfl
  | some a =>
    cases hk : s.connection with
    | none =>
      rw [hk] at hc
      cases hk' : s'.connection with
      | none => rfl
      | some c' =>
        rw [hk'] at hc
        cases hc
    | some c =>
      rw [hk] at hc
      cases hk' : s'.connection with
      | none =>
        rw [hk'] at hc
        cases hc
      | some c' =>
        rw [hk'] at hc
        cases hc with
        | some hc =>
          have hu := Endpoint.ofStep_eq (a := a) settings hr hc h.configured
            fun k hok key hh => hh.2 c a k hk ha hok
          simp only [hu]

/-- Only endpoint steps may differ, and what they come to does not. -/
theorem ofStep_eq (hr : r.connectors = r'.connectors)
    (h : s.Agree (s.Hidden settings.maskSecrets r) s') (i : Nat) :
    ofStep ⟨settings, r⟩ i s = ofStep ⟨settings, r'⟩ i s' := by
  simp only [ofStep]
  by_cases hk : s.kind = "endpoint"
  · rw [if_pos hk, if_pos (h.kind ▸ hk), endpointStep_eq hr h]
  · have hm : s.configured = s'.configured :=
      h.configured.eq_of_not_hidden fun key _ hh => hk hh.1
    simp only [h.kind] at hk ⊢
    simp only [if_neg hk, filterStep, ruleStep, mapperStep, Mapper.mapping?, hm]

end Compiled

theorem compileStep_congr {x x' : Context} {c c' : StepCursor}
    (h : Compiled.ofStep x c.index c.step = Compiled.ofStep x' c'.index c'.step) :
    compileStep x c = compileStep x' c' := by
  funext w
  change (compileStep x c).runOn w = (compileStep x' c').runOn w
  rw [runOn_compileStep, runOn_compileStep, h]

theorem compileSteps_congr {x x' : Context} {cs cs' : List StepCursor}
    (h : Forall₂ (fun c c' => Compiled.ofStep x c.index c.step =
      Compiled.ofStep x' c'.index c'.step) cs cs') : compileSteps x cs = compileSteps x' cs' := by
  induction h with
  | nil => rfl
  | cons hc h ih => rw [compileSteps, compileSteps, compileStep_congr hc, ih]

namespace FlowRequest.Agree

variable {settings : Settings} {masking : Bool} {r r' : FlowRequest}

theorem compileSteps_eq (h : r.Agree settings.maskSecrets r') :
    compileSteps ⟨settings, r⟩ (StepCursor.places r.integration.steps) =
      compileSteps ⟨settings, r'⟩ (StepCursor.places r'.integration.steps) := by
  refine compileSteps_congr ?_
  rw [List.forall₂_iff_get]
  have hl := h.steps.length_eq
  refine ⟨by simpa using hl, ?_⟩
  intro i hi hi'
  have hs := (List.forall₂_iff_get.1 h.steps).2 i (by simpa using hi) (by simpa using hi')
  simpa [StepCursor.places] using Compiled.ofStep_eq h.connectors hs (i + 1)

/-! ## Documents that agree -/

theorem stepLines_eq {hidden : Step → String → Prop} {l l' : List Step}
    (h : Forall₂ (fun s s' => s.Agree (hidden s) s') l l') (n : Nat) :
    (l.zipIdx n).map (fun p => Documents.stepLine p.2 p.1) =
      (l'.zipIdx n).map (fun p => Documents.stepLine p.2 p.1) := by
  induction h generalizing n with
  | nil => rfl
  | cons hs h ih =>
    rw [List.zipIdx_cons, List.zipIdx_cons, List.map_cons, List.map_cons, ih (n + 1)]
    simp only [Documents.stepLine, hs.kind, hs.name, hs.action]

theorem collect_eq {hidden : Step → String → Prop} {l l' : List Step}
    (h : Forall₂ (fun s s' => s.Agree (hidden s) s') l l') :
    Coordinate.collect l = Coordinate.collect l' := by
  simp only [Coordinate.collect]
  generalize (([], []) : List Coordinate × List LogRecord) = acc
  induction h generalizing acc with
  | nil => rfl
  | cons hs h ih =>
    simp only [List.foldl_cons, Coordinate.collectStep, Coordinate.textOf, hs.action]
    exact ih _

theorem requestDocuments_eq (h : r.Agree masking r') :
    requestDocuments r.integration = requestDocuments r'.integration := by
  have hs : Documents.stepsText r.integration.steps = Documents.stepsText r'.integration.steps := by
    have he : r.integration.steps.isEmpty = r'.integration.steps.isEmpty := by
      rw [Bool.eq_iff_iff, List.isEmpty_iff_length_eq_zero, List.isEmpty_iff_length_eq_zero,
        h.steps.length_eq]
    simp only [Documents.stepsText, stepLines_eq h.steps, he]
  unfold requestDocuments Documents.readme Documents.application Documents.properties
  rw [hs, h.id, h.name, h.description]

theorem closingDocuments_eq (h : r.Agree masking r') (flow : Flow) :
    closingDocuments r.integration flow = closingDocuments r'.integration flow := by
  unfold closingDocuments Documents.descriptor
  rw [collect_eq h.steps, h.id, h.name, h.description]

end FlowRequest.Agree

/-! ## Builds that agree -/

/-- Additional resources leave the templates as they are. -/
theorem templates_runOn_copyResources (src : Sources) (resources : List Resource) (s : BuildState) :
    ((resources.forM (copyResource src)).runOn s).2.templates = s.templates := by
  rw [List.forM_eq_forM]
  induction resources generalizing s with
  | nil => rfl
  | cons res resources ih =>
    have hc : ((copyResource src res).runOn s).2.templates = s.templates := by
      rw [copyResource, Build.runOn_bind_ok (Build.runOn_get s)]
      cases hr : s.templates.readResource src.tree src.cwd res.source with
      | error e => rfl
      | ok content => rfl
    rw [List.forM_cons, Build.runOn_bind]
    cases h : (copyResource src res).runOn s with
    | mk a s' =>
      rw [h] at hc
      cases a with
      | error e => exact hc
      | ok u => exact (ih s').trans hc

theorem runOn_buildDocuments_eq {src : Sources} {settings : Settings} {r r' : FlowRequest}
    (h : r.Agree settings.maskSecrets r') {s : BuildState} (hs : src.ServesShipped s.templates) :
    (buildDocuments src settings Registry.builtin r).runOn s =
      (buildDocuments src settings Registry.builtin r').runOn s := by
  obtain ⟨records, entry, l₁, l₂, -, -, hrun⟩ := runOn_buildDocuments hs
  rw [show s = ⟨s.work, s.templates⟩ from rfl, hrun settings r, hrun settings r', h.compileSteps_eq,
    h.requestDocuments_eq]
  simp only [h.closingDocuments_eq, FlowRequest.Agree.collect_eq h.steps, h.name]

theorem runOn_buildProject_eq {src : Sources} {settings : Settings} {r r' : FlowRequest}
    (h : r.Agree settings.maskSecrets r') {s : BuildState} (hs : src.ServesShipped s.templates) :
    (buildProject src settings Registry.builtin r).runOn s =
      (buildProject src settings Registry.builtin r').runOn s := by
  have hstart : startRecord r.integration = startRecord r'.integration := by
    simp only [startRecord, h.name, h.steps.length_eq]
  rw [buildProject_eq, buildProject_eq, hstart, Build.runOn_bind_ok (Build.runOn_log _ _ _),
    Build.runOn_bind_ok (Build.runOn_log _ _ _), Build.runOn_bind, Build.runOn_bind]
  have hres := templates_runOn_copyResources src settings.templates.resources
    { s with work.log := s.work.log ++
      [⟨.info, loggerOf (some generatorModule), (startRecord r'.integration).message⟩] }
  generalize (settings.templates.resources.forM (copyResource src)).runOn _ = run at hres ⊢
  obtain ⟨copied, s'⟩ := run
  cases copied with
  | error e => rfl
  | ok u => exact runOn_buildDocuments_eq h (hres ▸ hs)

/-- Values at hidden keys have no influence: on the files, on the error, on what is logged, or on
the compiler that is left. -/
theorem generate_eq_of_agree {c : Compiler} {src : Sources} (hr : c.registry = Registry.builtin)
    (ht : src.ServesShipped c.templates) {r r' : FlowRequest}
    (h : r.Agree c.settings.maskSecrets r') : c.generate src r = c.generate src r' := by
  simp only [Compiler.generate]
  rw [Build.runWith_eq, Build.runWith_eq, hr, runOn_buildProject_eq h ht]

/-- A request whose connection is configured with a secret token, and with a note that nothing
defines. -/
def tokenRequest (token note : String) : FlowRequest where
  integration :=
    { name := "feed"
      steps :=
        [ { kind := "endpoint"
            connection := some
              { connectorId := some "feed"
                configured := OrderedMap.ofList [("token", token), ("note", note)] }
            action := some { scheme := "feed" } } ] }
  connectors := OrderedMap.ofList
    [("feed", { id := "feed", definitions := OrderedMap.ofList [("token", { secret := true })] })]

theorem generate_tokenRequest :
    (Compiler.ofSettings { maskSecrets := true }).generate
        ⟨Shipped.install FileTree.empty, []⟩ (tokenRequest "s3cret" "for the demo") =
      (Compiler.ofSettings { maskSecrets := true }).generate
        ⟨Shipped.install FileTree.empty, []⟩ (tokenRequest "hunter2" "") := by
  have hk (a : Action) (c : Connection) (hc : c.connectorId = some "feed") :
      Endpoint.connectorOf (tokenRequest "s3cret" "for the demo") c a =
        .ok { id := "feed", definitions := OrderedMap.ofList [("token", { secret := true })] } := by
    simp [Endpoint.connectorOf, Endpoint.connectorId, hc, Option.filter, tokenRequest,
      OrderedMap.ofList, OrderedMap.insertMany, OrderedMap.get?_insert]
  have ht : Sources.ServesShipped ⟨Shipped.install FileTree.empty, []⟩
      (Compiler.ofSettings { maskSecrets := true }).templates :=
    Library.servesShipped_ofSettings (s := {}) rfl rfl
  refine generate_eq_of_agree rfl ht ⟨rfl, rfl, rfl, rfl, .cons ⟨rfl, rfl, rfl, rfl, ?_, .nil⟩ .nil⟩
  refine .some ⟨rfl, rfl, rfl, .cons ⟨rfl, ?_⟩ (.cons ⟨rfl, ?_⟩ .nil)⟩
  · refine fun hn => absurd ⟨rfl, ?_⟩ hn
    rintro _ a k ⟨⟩ ⟨⟩ hok
    rw [hk _ _ rfl] at hok
    cases hok
    exact .inl ⟨rfl, .inl (by decide)⟩
  · refine fun hn => absurd ⟨rfl, ?_⟩ hn
    rintro _ a k ⟨⟩ ⟨⟩ hok
    rw [hk _ _ rfl] at hok
    cases hok
    exact .inr ⟨by decide, by decide⟩

end RouteCompiler
