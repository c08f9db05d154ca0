import RouteCompiler.Proofs.Endpoint.FilledDefaults
import RouteCompiler.Proofs.Project.Precedence
import RouteCompiler.Proofs.Project.Secrecy

/-!
What a flow shows of the defaults of secret properties. Masking replaces configured values, and a
default is filled in behind it; so with or without masking a flow is independent of secret defaults
exactly if no step fills one in, and every one that is filled in stands in the flow as it is.
-/

namespace RouteCompiler

open List (Forall₂)

variable {settings : Settings} {r : FlowRequest} {s : Step} {c : Connection} {a : Action}
  {k : Connector} {name : String} {d : PropertyDefinition}

/-- An endpoint step with all that makes an endpoint. -/
structure Step.Resolves (r : FlowRequest) (s : Step) (c : Connection) (a : Action) (k : Connector) :
    Prop where
  kind : s.kind = "endpoint"
  connection : s.connection = some c
  action : s.action = some a
  connector : Endpoint.connectorOf r c a = .ok k

/-- The step fills in the default of a secret property of its action. -/
def Step.Exposes (r : FlowRequest) (s : Step) (name : String) (d : PropertyDefinition) : Prop :=
  d.secret = true ∧ ∃ c a k, s.Resolves r c a k ∧ Endpoint.FillsIn c s k a name d

theorem Step.Resolves.mapSecretDefaults (h : s.Resolves r c a k) (f : DefaultChange) :
    (s.mapSecretDefaults f).Resolves (r.mapSecretDefaults f) c (a.mapSecretDefaults f) k where
  kind := h.kind
  connection := h.connection
  action := by rw [Step.mapSecretDefaults, h.action, Option.map_some]
  connector := h.connector

theorem Step.Resolves.of_mapSecretDefaults {f : DefaultChange} {a' : Action}
    (h : (s.mapSecretDefaults f).Resolves (r.mapSecretDefaults f) c a' k) :
    ∃ a, s.Resolves r c a k ∧ a.mapSecretDefaults f = a' := by
  obtain ⟨a, ha, rfl⟩ := Option.map_eq_some_iff.1 h.action
  exact ⟨a, ⟨h.kind, h.connection, ha, h.connector⟩, rfl⟩

/-! ## Endpoints -/

namespace Endpoint

theorem selected_mapSecretDefaults (f : DefaultChange) (k : Connector) (a : Action)
    (m : List (String × String)) : selected k (a.mapSecretDefaults f) m = selected k a m := by
  simp only [selected, Action.isEndpointLevel_mapSecretDefaults]

/-- A change of secret defaults does not change which defaults are filled in. -/
theorem fillsIn_mapSecretDefaults_iff {f : DefaultChange} {d' : PropertyDefinition} :
    FillsIn c (s.mapSecretDefaults f) k (a.mapSecretDefaults f) name d' ↔
      ∃ d, FillsIn c s k a name d ∧ d.mapSecretDefault f = d' := by
  constructor
  · intro h
    have hdefined := h.defined
    rw [Action.lastDefinition?_mapSecretDefaults] at hdefined
    obtain ⟨d, hd, rfl⟩ := Option.map_eq_some_iff.1 hdefined
    have hp := h.positional
    have hr := h.required
    have hn := h.notConfigured
    rw [PropertyDefinition.isPositional_mapSecretDefault] at hp
    rw [PropertyDefinition.required_mapSecretDefault] at hr
    rw [selected_mapSecretDefaults] at hn
    exact ⟨d, ⟨hd, hp, hr, hn, h.notTimer⟩, rfl⟩
  · rintro ⟨d, h, rfl⟩
    refine ⟨?_, ?_, ?_, ?_, h.notTimer⟩
    · rw [Action.lastDefinition?_mapSecretDefaults, h.defined, Option.map_some]
    · rw [PropertyDefinition.isPositional_mapSecretDefault, h.positional]
    · rw [PropertyDefinition.required_mapSecretDefault, h.required]
    · rw [selected_mapSecretDefaults]
      exact h.notConfigured

theorem emitted_mapSecretDefaults (f : DefaultChange) (masking : Bool)
    (m : List (String × String)) :
    emitted masking c k (a.mapSecretDefaults f) m = emitted masking c k a m := by
  have hshown : shown masking (owner c (a.mapSecretDefaults f)) k (a.mapSecretDefaults f) =
      shown masking (owner c a) k a := by
    funext e
    simp only [shown, Action.isSecret_mapSecretDefaults]
    rfl
  simp only [emitted, selected_mapSecretDefaults, hshown, Action.scheme_mapSecretDefaults]

theorem emittedScheme_mapSecretDefaults (f : DefaultChange) (m : List (String × String)) :
    emittedScheme c k (a.mapSecretDefaults f) m = emittedScheme c k a m := by
  simp only [emittedScheme, Action.isComponentLevel_mapSecretDefaults]
  rfl

/-- Whatever the secret defaults are, the endpoint of a step has the same scheme and options. -/
theorem exists_options (settings : Settings) (s : Step) (hk : connectorOf r c a = .ok k) :
    ∃ (scheme : String) (options : PropertyMap),
      options.entries = emitted settings.maskSecrets c k a (merged c s) ∧
      ofStep ⟨settings, r⟩ s c a = .ok (uri a a.scheme scheme options) ∧
      ∀ f, ofStep ⟨settings, r.mapSecretDefaults f⟩ (s.mapSecretDefaults f) c
          (a.mapSecretDefaults f) =
        .ok (uri (a.mapSecretDefaults f) a.scheme scheme options) := by
  obtain ⟨options, hoptions, huri⟩ := ofStep_eq_uri (x := ⟨settings, r⟩) (s := s) hk
  refine ⟨_, options, hoptions, huri, fun f => ?_⟩
  obtain ⟨options', hoptions', huri'⟩ := ofStep_eq_uri (c := c) (a := a.mapSecretDefaults f)
    (x := ⟨settings, r.mapSecretDefaults f⟩) (s := s.mapSecretDefaults f) hk
  rw [emitted_mapSecretDefaults] at hoptions'
  have hsame : options' = options := OrderedMap.ext (hoptions'.trans hoptions.symm)
  rw [huri', hsame, emittedScheme_mapSecretDefaults]
  rfl

/-- An option that is not there is one that the step is not configured with. -/
theorem get?_eq_none_iff {masking : Bool} {options : PropertyMap} {m : List (String × String)}
    (h : options.entries = emitted masking c k a m) : options.get? name = none ↔
      name ∉ (selected k a m).map Prod.fst ∧
        ¬ (a.scheme = "periodic-timer" ∧ name = "timerName") := by
  have hkeys : ((selected k a m).map (shown masking (owner c a) k a)).map Prod.fst =
      (selected k a m).map Prod.fst := by
    rw [List.map_map]
    refine List.map_congr_left fun e _ => ?_
    rw [Function.comp_apply, shown]
    split <;> rfl
  rw [OrderedMap.get?, OrderedMap.lookup_eq_none_iff, h, emitted, hkeys]
  split
  next htimer =>
    rw [List.map_append, hkeys, List.mem_append, not_or]
    simp [htimer.1]
  next htimer =>
    rw [hkeys]
    refine ⟨fun hname => ⟨hname, ?_⟩, And.left⟩
    rintro ⟨hscheme, rfl⟩
    exact htimer ⟨hscheme, hname⟩

end Endpoint

/-! ## Steps -/

theorem Step.exposes_mapSecretDefaults_iff {f : DefaultChange} {d' : PropertyDefinition} :
    (s.mapSecretDefaults f).Exposes (r.mapSecretDefaults f) name d' ↔
      ∃ d, s.Exposes r name d ∧ d.mapSecretDefault f = d' := by
  constructor
  · rintro ⟨hs, c, a', k, hres', hfills'⟩
    obtain ⟨a, hres, rfl⟩ := hres'.of_mapSecretDefaults
    obtain ⟨d, hfills, rfl⟩ := Endpoint.fillsIn_mapSecretDefaults_iff.1 hfills'
    rw [PropertyDefinition.secret_mapSecretDefault] at hs
    exact ⟨d, ⟨hs, c, a, k, hres, hfills⟩, rfl⟩
  · rintro ⟨d, ⟨hs, c, a, k, hres, hfills⟩, rfl⟩
    refine ⟨?_, c, _, k, hres.mapSecretDefaults f,
      Endpoint.fillsIn_mapSecretDefaults_iff.2 ⟨d, hfills, rfl⟩⟩
    rw [PropertyDefinition.secret_mapSecretDefault, hs]

namespace Compiled

theorem ofStep_of_uri {x : Context} {u : String} (h : s.Resolves x.request c a k)
    (hu : Endpoint.ofStep x s c a = .ok u) (i : Nat) :
    ofStep x i s = .ok
      { element := some (.endpoint u)
        records := [record Endpoint.module s!"  [ENDPOINT] #{i} {u}"] } := by
  rw [ofStep, if_pos h.kind, endpointStep, h.action, h.connection]
  dsimp only
  rw [hu]

/-- A step without an endpoint comes to the same, whatever the secret defaults are. -/
theorem ofStep_mapSecretDefaults_of_not_resolves (h : ∀ c a k, ¬ s.Resolves r c a k)
    (f : DefaultChange) (i : Nat) :
    ofStep ⟨settings, r.mapSecretDefaults f⟩ i (s.mapSecretDefaults f) =
      ofStep ⟨settings, r⟩ i s := by
  by_cases hs : s.kind = "endpoint"
  · rw [ofStep, ofStep, if_pos hs, if_pos (by exact hs), endpointStep, endpointStep,
      Step.mapSecretDefaults]
    dsimp only
    cases ha : s.action with
    | none => rfl
    | some a =>
      cases hc : s.connection with
      | none => rfl
      | some c =>
        have hk : Endpoint.connectorOf (r.mapSecretDefaults f) c (a.mapSecretDefaults f) =
          Endpoint.connectorOf r c a := rfl
        dsimp only [Option.map_some]
        rw [Endpoint.ofStep, Endpoint.ofStep, hk]
        cases he : Endpoint.connectorOf r c a with
        | ok k => exact absurd ⟨hs, hc, ha, he⟩ (h c a k)
        | error e => rfl
  · rw [ofStep, ofStep, if_neg hs, if_neg (by exact hs)]
    rfl

/-- A step that exposes no default comes to the same, whatever the secret defaults are. -/
theorem ofStep_mapSecretDefaults (h : ∀ name d, ¬ s.Exposes r name d) (f : DefaultChange)
    (i : Nat) :
    ofStep ⟨settings, r.mapSecretDefaults f⟩ i (s.mapSecretDefaults f) =
      ofStep ⟨settings, r⟩ i s := by
  by_cases hres : ∃ c a k, s.Resolves r c a k
  · obtain ⟨c, a, k, hres⟩ := hres
    obtain ⟨scheme, options, hoptions, hu, hu'⟩ :=
      Endpoint.exists_options settings s hres.connector
    have hsame : Endpoint.uri (a.mapSecretDefaults f) a.scheme scheme options =
        Endpoint.uri a a.scheme scheme options := by
      refine Endpoint.uri_mapSecretDefaults f _ _ fun name d hd hp hr hs ho => ?_
      obtain ⟨hn, ht⟩ := (Endpoint.get?_eq_none_iff hoptions).1 ho
      exact h name d ⟨hs, c, a, k, hres, hd, hp, hr, hn, ht⟩
    rw [ofStep_of_uri hres hu, ofStep_of_uri (hres.mapSecretDefaults f) (hu' f), hsame]
  · exact ofStep_mapSecretDefaults_of_not_resolves (fun c a k h => hres ⟨c, a, k, h⟩) f i

/-- In any case it fails in the same way, or has an element like before. -/
theorem ofStep_mapSecretDefaults_cases (settings : Settings) (r : FlowRequest) (s : Step)
    (f : DefaultChange) (i : Nat) :
    ofStep ⟨settings, r.mapSecretDefaults f⟩ i (s.mapSecretDefaults f) =
        ofStep ⟨settings, r⟩ i s ∨
      ∃ p p', ofStep ⟨settings, r⟩ i s = .ok p ∧
        ofStep ⟨settings, r.mapSecretDefaults f⟩ i (s.mapSecretDefaults f) = .ok p' ∧
        p.element.isSome = p'.element.isSome := by
  by_cases hres : ∃ c a k, s.Resolves r c a k
  · obtain ⟨c, a, k, hres⟩ := hres
    obtain ⟨scheme, options, -, hu, hu'⟩ := Endpoint.exists_options settings s hres.connector
    exact .inr ⟨_, _, ofStep_of_uri hres hu i,
      ofStep_of_uri (hres.mapSecretDefaults f) (hu' f) i, rfl⟩
  · exact .inl (ofStep_mapSecretDefaults_of_not_resolves (fun c a k h => hres ⟨c, a, k, h⟩) f i)

/-- A step that exposes a default comes to an endpoint that shows it, and to another endpoint if the
default is another. -/
theorem exists_ofStep_of_exposes (settings : Settings) (h : s.Exposes r name d) (i : Nat) :
    ∃ p p' u u', ofStep ⟨settings, r⟩ i s = .ok p ∧ p.element = some (.endpoint u) ∧
      (":" ++ d.defaultValue.getD "").toList <:+: u.toList ∧
      ofStep ⟨settings, r.mapSecretDefaults .extend⟩ i (s.mapSecretDefaults .extend) = .ok p' ∧
      p'.element = some (.endpoint u') ∧ u ≠ u' := by
  obtain ⟨hs, c, a, k, hres, hfills⟩ := h
  obtain ⟨scheme, options, hoptions, hu, hu'⟩ := Endpoint.exists_options settings s hres.connector
  have ho : options.get? name = none :=
    (Endpoint.get?_eq_none_iff hoptions).2 ⟨hfills.notConfigured, hfills.notTimer⟩
  have hne : Endpoint.uri a a.scheme scheme options ≠
      Endpoint.uri (a.mapSecretDefaults .extend) a.scheme scheme options := by
    intro heq
    have hlt := Endpoint.length_uri_lt a.scheme scheme hfills.defined hfills.positional
      hfills.required hs ho
    rw [heq] at hlt
    exact Nat.lt_irrefl _ hlt
  exact ⟨_, _, _, _, ofStep_of_uri hres hu i, rfl,
    Endpoint.default_infix_uri _ _ hfills.defined hfills.positional hfills.required ho,
    ofStep_of_uri (hres.mapSecretDefaults .extend) (hu' .extend) i, rfl, hne⟩

end Compiled

/-! ## Flows -/

theorem StepCursor.exists_place {steps : List Step} (hs : s ∈ steps) :
    ∃ c ∈ places steps, c.step = s := by
  obtain ⟨i, hi⟩ := List.getElem?_of_mem hs
  have hplace := getElem?_places steps i
  rw [hi] at hplace
  exact ⟨_, List.mem_of_getElem? hplace, rfl⟩

/-- The places of mapped steps are those of the steps, with mapped steps. -/
theorem StepCursor.forall₂_places_map (g : Step → Step) (steps : List Step) :
    Forall₂ (fun c c' => c.index = c'.index ∧ c.step ∈ steps ∧ c'.step = g c.step)
      (places steps) (places (steps.map g)) := by
  rw [List.forall₂_iff_get]
  refine ⟨by simp, fun i hi hi' => ?_⟩
  simp [places]

theorem runOn_bind_pure_error_iff {α β : Type} {m : Compile α} {f : α → β} {w : Workspace}
    {e : Failure} : ((m >>= fun x => pure (f x)).runOn w).1 = .error e ↔
      (m.runOn w).1 = .error e := by
  rw [Compile.runOn_bind]
  cases m.runOn w with
  | mk result w' =>
    cases result with
    | error e' => simp
    | ok x => exact ⟨nofun, nofun⟩

/-- Steps that fail alike fail alike together. -/
theorem compileSteps_error_iff {x x' : Context} {cs cs' : List StepCursor} {e : Failure}
    (h : Forall₂ (fun c c' => ∀ e, Compiled.ofStep x c.index c.step = .error e ↔
      Compiled.ofStep x' c'.index c'.step = .error e) cs cs') (w w' : Workspace) :
    ((compileSteps x cs).runOn w).1 = .error e ↔ ((compileSteps x' cs').runOn w').1 = .error e := by
  induction h generalizing w w' with
  | nil => exact ⟨nofun, nofun⟩
  | @cons c c' cs cs' hc h ih =>
    rw [compileSteps, compileSteps]
    cases hp : Compiled.ofStep x c.index c.step with
    | error e =>
      rw [Compile.runOn_bind_error (runOn_compileStep_of_error hp w),
        Compile.runOn_bind_error (runOn_compileStep_of_error ((hc e).1 hp) w')]
    | ok p =>
      cases hp' : Compiled.ofStep x' c'.index c'.step with
      | error e' =>
        rw [(hc e').2 hp'] at hp
        cases hp
      | ok p' =>
        rw [Compile.runOn_bind_ok (runOn_compileStep_of_ok hp w),
          Compile.runOn_bind_ok (runOn_compileStep_of_ok hp' w'), runOn_bind_pure_error_iff,
          runOn_bind_pure_error_iff]
        exact ih _ _

/-- Equal elements of steps that have elements alike stand for the same steps. -/
theorem element_eq_of_flatMap_eq {x x' : Context} {cs cs' : List StepCursor}
    {ps ps' : List Compiled}
    (h : Forall₂ (fun c c' => ∀ p p', Compiled.ofStep x c.index c.step = .ok p →
      Compiled.ofStep x' c'.index c'.step = .ok p' → p.element.isSome = p'.element.isSome) cs cs')
    (hps : Forall₂ (fun c p => Compiled.ofStep x c.index c.step = .ok p) cs ps)
    (hps' : Forall₂ (fun c p => Compiled.ofStep x' c.index c.step = .ok p) cs' ps')
    (heq : (ps.flatMap fun p => p.element.toList) = ps'.flatMap fun p => p.element.toList) :
    Forall₂ (fun c c' => ∀ p p', Compiled.ofStep x c.index c.step = .ok p →
      Compiled.ofStep x' c'.index c'.step = .ok p' → p.element = p'.element) cs cs' := by
  induction h generalizing ps ps' with
  | nil => exact .nil
  | @cons c c' cs cs' hc h ih =>
    obtain ⟨p, rest, hp, hrest, rfl⟩ := List.forall₂_cons_left_iff.1 hps
    obtain ⟨p', rest', hp', hrest', rfl⟩ := List.forall₂_cons_left_iff.1 hps'
    have hlength : p.element.toList.length = p'.element.toList.length := by
      rw [Option.length_toList, Option.length_toList, hc p p' hp hp']
    rw [List.flatMap_cons, List.flatMap_cons] at heq
    obtain ⟨hhead, htail⟩ := List.append_inj heq hlength
    refine .cons (fun q q' hq hq' => ?_) (ih hrest hrest' htail)
    obtain rfl : p = q := Except.ok.inj (hp.symm.trans hq)
    obtain rfl : p' = q' := Except.ok.inj (hp'.symm.trans hq')
    rw [← Option.head?_toList (o := p.element), hhead, Option.head?_toList]

/-- No step of the request fills in a secret default. -/
def FlowRequest.ExposesNothing (r : FlowRequest) : Prop :=
  ∀ s ∈ r.integration.steps, ∀ name d, ¬ s.Exposes r name d

theorem FlowRequest.exposesNothing_mapSecretDefaults_iff {f : DefaultChange} :
    (r.mapSecretDefaults f).ExposesNothing ↔ r.ExposesNothing := by
  constructor
  · intro h s hs name d hd
    exact h _ (List.mem_map_of_mem hs) name _ (Step.exposes_mapSecretDefaults_iff.2 ⟨d, hd, rfl⟩)
  · intro h s' hs' name d' hd'
    obtain ⟨s, hs, rfl⟩ := List.mem_map.1 hs'
    obtain ⟨d, hd, -⟩ := Step.exposes_mapSecretDefaults_iff.1 hd'
    exact h s hs name d hd

section
variable (settings : Settings)

theorem runOn_generateFlow_mapSecretDefaults (h : r.ExposesNothing) (f : DefaultChange)
    (w : Workspace) :
    (generateFlow Registry.builtin settings (r.mapSecretDefaults f)).runOn w =
      (generateFlow Registry.builtin settings r).runOn w := by
  rw [runOn_generateFlow, runOn_generateFlow]
  have hsteps : compileSteps ⟨settings, r⟩ (StepCursor.places r.integration.steps) =
      compileSteps ⟨settings, r.mapSecretDefaults f⟩
        (StepCursor.places (r.mapSecretDefaults f).integration.steps) := by
    refine compileSteps_congr ?_
    refine (StepCursor.forall₂_places_map _ _).imp ?_
    rintro c c' ⟨hindex, hc, hc'⟩
    rw [hc', ← hindex, Compiled.ofStep_mapSecretDefaults (h c.step hc)]
  rw [hsteps]
  rfl

theorem generateFlow_error_iff (r : FlowRequest) (f : DefaultChange) (w : Workspace)
    {e : Failure} :
    ((generateFlow Registry.builtin settings (r.mapSecretDefaults f)).runOn w).1 = .error e ↔
      ((generateFlow Registry.builtin settings r).runOn w).1 = .error e := by
  have hmap {α β : Type} (g : α → β) (m : Except Failure α) :
      m.map g = .error e ↔ m = .error e := by
    cases m with
    | error e' => simp [Except.map]
    | ok a => exact ⟨nofun, nofun⟩
  rw [runOn_generateFlow, runOn_generateFlow, hmap, hmap]
  refine (compileSteps_error_iff ?_ w w).symm
  refine (StepCursor.forall₂_places_map _ _).imp ?_
  rintro c c' ⟨hindex, -, hc'⟩ e'
  rw [hc', ← hindex]
  obtain heq | ⟨p, p', hp, hp', -⟩ :=
    Compiled.ofStep_mapSecretDefaults_cases settings r c.step f c.index
  · rw [heq]
  · rw [hp, hp']
    exact ⟨nofun, nofun⟩

/-- The flow of a request that exposes a default is another one if the default is another. -/
theorem generateFlow_extend_ne {w : Workspace} {flow : Flow} (hs : s ∈ r.integration.steps)
    (h : s.Exposes r name d)
    (hf : ((generateFlow Registry.builtin settings r).runOn w).1 = .ok flow) :
    ((generateFlow Registry.builtin settings (r.mapSecretDefaults .extend)).runOn w).1 ≠
      .ok flow := by
  intro hf'
  have hplaces := StepCursor.forall₂_places_map (Step.mapSecretDefaults .extend)
    r.integration.steps
  obtain ⟨ps, hps, hflow, -⟩ := runOn_generateFlow_ok_iff.1 (Prod.ext hf rfl)
  obtain ⟨ps', hps', hflow', -⟩ := runOn_generateFlow_ok_iff.1 (Prod.ext hf' rfl)
  have helements := element_eq_of_flatMap_eq (hplaces.imp ?_) hps hps'
    (congrArg Flow.steps (hflow.symm.trans hflow'))
  · obtain ⟨c, hc, rfl⟩ := StepCursor.exists_place hs
    obtain ⟨c', -, ⟨hindex, -, hc'⟩, heq⟩ := exists_mem_of_forall₂
      (hplaces.mp (fun _ _ hq hr => And.intro hq hr) helements) hc
    obtain ⟨p, p', u, u', hp, hu, -, hp', hu', hne⟩ :=
      Compiled.exists_ofStep_of_exposes settings h c.index
    rw [← hc', hindex] at hp'
    have hsame := heq p p' hp hp'
    rw [hu, hu'] at hsame
    cases hsame
    exact hne rfl
  · rintro c c' ⟨hindex, -, hc'⟩ p p' hp hp'
    rw [hc', ← hindex] at hp'
    obtain hsame | ⟨q, q', hq, hq', hsome⟩ :=
      Compiled.ofStep_mapSecretDefaults_cases settings r c.step .extend c.index
    · rw [hsame, hp] at hp'
      cases hp'
      rfl
    · cases hp.symm.trans hq
      cases hp'.symm.trans hq'
      exact hsome

/-- A default that a step exposes stands in the flow. -/
theorem exists_endpoint_of_exposes {w : Workspace} {flow : Flow} (hs : s ∈ r.integration.steps)
    (h : s.Exposes r name d)
    (hf : ((generateFlow Registry.builtin settings r).runOn w).1 = .ok flow) :
    ∃ u, Element.endpoint u ∈ flow.steps ∧
      (":" ++ d.defaultValue.getD "").toList <:+: u.toList := by
  obtain ⟨ps, hps, rfl, -⟩ := runOn_generateFlow_ok_iff.1 (Prod.ext hf rfl)
  obtain ⟨c, hc, rfl⟩ := StepCursor.exists_place hs
  obtain ⟨p, hp, hcp⟩ := exists_mem_of_forall₂ hps hc
  obtain ⟨q, -, u, -, hq, hu, hinfix, -⟩ := Compiled.exists_ofStep_of_exposes settings h c.index
  cases hcp.symm.trans hq
  refine ⟨u, ?_, hinfix⟩
  exact List.mem_flatMap.2 ⟨p, hp, by rw [hu]; exact List.mem_singleton_self _⟩

end

/-- Of requests that are the same without their secret defaults all fail alike if one fails. If one
has a flow, it is the flow of all of them exactly if no step fills in a secret default; a default
that is filled in stands in the flow as it is, whether secrets are masked or not. -/
theorem generateFlow_secretDefaults (settings : Settings) (r : FlowRequest) (w : Workspace) :
    let flowOf (r : FlowRequest) := ((generateFlow Registry.builtin settings r).runOn w).1
    (∀ e, flowOf r = .error e →
      ∀ r', r'.withoutSecretDefaults = r.withoutSecretDefaults → flowOf r' = .error e) ∧
    ∀ flow, flowOf r = .ok flow →
      ((∀ r', r'.withoutSecretDefaults = r.withoutSecretDefaults → flowOf r' = .ok flow) ↔
        ∀ s ∈ r.integration.steps, ∀ name d, ¬ s.Exposes r name d) ∧
      ∀ s ∈ r.integration.steps, ∀ name d, s.Exposes r name d →
        ∃ u, Element.endpoint u ∈ flow.steps ∧
          (":" ++ d.defaultValue.getD "").toList <:+: u.toList := by
  intro flowOf
  refine ⟨fun e he r' hr' => ?_, fun flow hflow => ⟨⟨fun hall s hs name d hd => ?_, ?_⟩, ?_⟩⟩
  · have hbare := (generateFlow_error_iff settings r .remove w).2 he
    change ((generateFlow _ _ r.withoutSecretDefaults).runOn w).1 = _ at hbare
    rw [← hr'] at hbare
    exact (generateFlow_error_iff settings r' .remove w).1 hbare
  · exact generateFlow_extend_ne settings hs hd hflow
      (hall _ (r.withoutSecretDefaults_mapSecretDefaults .extend))
  · intro h r' hr'
    have hbare : r'.withoutSecretDefaults.ExposesNothing := by
      rw [hr']
      exact FlowRequest.exposesNothing_mapSecretDefaults_iff.2 h
    have h' : r'.ExposesNothing := FlowRequest.exposesNothing_mapSecretDefaults_iff.1 hbare
    have hrun := runOn_generateFlow_mapSecretDefaults settings h .remove w
    have hrun' := runOn_generateFlow_mapSecretDefaults settings h' .remove w
    change (generateFlow _ _ r.withoutSecretDefaults).runOn w = _ at hrun
    change (generateFlow _ _ r'.withoutSecretDefaults).runOn w = _ at hrun'
    rw [hr', hrun] at hrun'
    change ((generateFlow _ _ r').runOn w).1 = _
    rw [← hrun']
    exact hflow
  · intro s hs name d hd
    exact exists_endpoint_of_exposes settings hs hd hflow

/-- A request whose action needs a token in the path, which nothing configures. -/
def vaultRequest (token : String) : FlowRequest where
  integration :=
    { name := "A"
      steps :=
        [ { kind := "endpoint"
            connection := some { connectorId := some "vault" }
            action := some
              { scheme := "vault"
                groups :=
                  [ { definitions := OrderedMap.ofList
                        [("token", { kind := "path", required := true, secret := true,
                                     defaultValue := some token })] } ] } } ] }
  connectors := OrderedMap.ofList [("vault", { id := "vault" })]

theorem withoutSecretDefaults_vaultRequest : (vaultRequest "first").withoutSecretDefaults =
    (vaultRequest "second").withoutSecretDefaults := by
  decide

theorem runOn_generateFlow_vaultRequest {token : String}
    (h : token = "first" ∨ token = "second") :
    ((generateFlow Registry.builtin { maskSecrets := true } (vaultRequest token)).runOn {}).1 =
      .ok ⟨some "A", [.endpoint ("vault:" ++ token)]⟩ := by
  refine eq_ok_of_toOption ?_
  rw [runOn_generateFlow]
  obtain rfl | rfl := h <;> decide +kernel

/-- Nothing of it is hidden: the token stands in the flow, and with another token the flow is
another one. -/
theorem generateFlow_vaultRequest :
    (¬ ∀ r, r.withoutSecretDefaults = (vaultRequest "first").withoutSecretDefaults →
      ((generateFlow Registry.builtin { maskSecrets := true } r).runOn {}).1 =
        .ok ⟨some "A", [.endpoint "vault:first"]⟩) ∧
    ∃ u, Element.endpoint u ∈ [Element.endpoint "vault:first"] ∧ ":first".toList <:+: u.toList := by
  have hexposes : ∀ s ∈ (vaultRequest "first").integration.steps,
      s.Exposes (vaultRequest "first") "token"
        { kind := "path", required := true, secret := true, defaultValue := some "first" } := by
    intro s hs
    obtain rfl := List.mem_singleton.1 hs
    exact ⟨rfl, _, _, _, ⟨rfl, rfl, rfl, rfl⟩, rfl, rfl, rfl, by decide, by decide⟩
  obtain ⟨hiff, hshown⟩ := (generateFlow_secretDefaults { maskSecrets := true }
    (vaultRequest "first") {}).2 _ (runOn_generateFlow_vaultRequest (.inl rfl))
  refine ⟨fun hall => ?_, ?_⟩
  · exact hiff.1 hall _ List.mem_cons_self _ _ (hexposes _ List.mem_cons_self)
  · exact hshown _ List.mem_cons_self _ _ (hexposes _ List.mem_cons_self)

/-- So masking does not cover secret defaults. -/
theorem not_generateFlow_eq_of_withoutSecretDefaults_eq : ¬ ∀ r r' : FlowRequest,
    r.withoutSecretDefaults = r'.withoutSecretDefaults →
      ((generateFlow Registry.builtin { maskSecrets := true } r).runOn {}).1 =
        ((generateFlow Registry.builtin { maskSecrets := true } r').runOn {}).1 := by
  intro h
  have hsame := h _ _ withoutSecretDefaults_vaultRequest
  rw [runOn_generateFlow_vaultRequest (.inl rfl), runOn_generateFlow_vaultRequest (.inr rfl)]
    at hsame
  have hflow := Except.ok.inj hsame
  revert hflow
  decide

end RouteCompiler
