import RouteCompiler.Proofs.StepCompilation

/-!
Which options the endpoint of a step has. They are listed here from the configured properties in one
pass: what the connector takes, then what only the action takes, each with its value or the
reference that stands for a secret one, and at the end the name that a timer needs.
-/

namespace RouteCompiler.Endpoint

/-- The properties configured for a step: those of its connection in their places, with the step's
value where it has one, and then the others of the step. -/
def merged (c : Connection) (s : Step) : List (String × String) :=
  c.configured.entries.map (fun e => (e.1, (s.configured.get? e.1).getD e.2)) ++
    s.configured.entries.filter fun e => decide (e.1 ∉ c.configured.keys)

/-- What a connection's secrets are named for, and its component, if it has one of its own. -/
def owner (c : Connection) (a : Action) : String :=
  if c.id.getD "" = "" then a.scheme else a.scheme ++ "-" ++ c.id.getD ""

/-- What is endpoint-level for the connector, and then what is so for the action alone. -/
def selected (k : Connector) (a : Action) (m : List (String × String)) : List (String × String) :=
  (m.filter fun e => k.definitions.isEndpointLevel e.1) ++
    m.filter fun e => a.definitions.isEndpointLevel e.1 && !k.definitions.isEndpointLevel e.1

def shown (masking : Bool) (owner : String) (k : Connector) (a : Action) (e : String × String) :
    String × String :=
  if masking && (k.definitions.isSecret e.1 || a.definitions.isSecret e.1) then
    (e.1, "\x7b\x7b" ++ owner ++ "." ++ e.1 ++ "\x7d\x7d")
  else e

/-- The options of an endpoint whose configured properties are `m`. -/
def emitted (masking : Bool) (c : Connection) (k : Connector) (a : Action)
    (m : List (String × String)) : List (String × String) :=
  let listed := (selected k a m).map (shown masking (owner c a) k a)
  if a.scheme = "periodic-timer" ∧ "timerName" ∉ listed.map Prod.fst then
    listed ++ [("timerName", "every")]
  else listed

/-- The scheme of an endpoint whose configured properties are `m`. -/
def emittedScheme (c : Connection) (k : Connector) (a : Action) (m : List (String × String)) :
    String :=
  if ∃ e ∈ m, k.definitions.isComponentLevel e.1 = true ∨ a.definitions.isComponentLevel e.1 = true
  then owner c a
  else a.scheme

section
variable {c : Connection} {s : Step} {k : Connector} {a : Action}

theorem entries_configured (c : Connection) (s : Step) :
    (c.configured.overlay s.configured).entries = merged c s :=
  OrderedMap.entries_overlay _ _

theorem ownScheme_eq (c : Connection) (a : Action) : ownScheme c a = owner c a := by
  rw [ownScheme, owner]
  cases c.id with
  | none => rfl
  | some i => by_cases h : i = "" <;> simp [h, Option.filter]

theorem entries_options (k : Connector) (a : Action) (m : PropertyMap) :
    (options k a m).entries = selected k a m.entries :=
  OrderedMap.entries_overlay_filterKeys m _ _

theorem entries_maskSecrets (m : PropertyMap) (owner : String) :
    (m.maskSecrets owner [k.definitions, a.definitions]).entries =
      m.entries.map (shown true owner k a) := by
  refine List.map_congr_left fun e _ => ?_
  simp only [shown, PropertyMap.placeholder, List.any_cons, List.any_nil, Bool.or_false,
    Bool.true_and]
  split <;> rfl

theorem shown_false (owner : String) : shown false owner k a = id := by
  funext e
  rfl

theorem entries_withTimerName (m : PropertyMap) : (withTimerName m).entries =
    if "timerName" ∉ m.keys then m.entries ++ [("timerName", "every")] else m.entries := by
  rw [withTimerName]
  by_cases h : "timerName" ∈ m.keys
  · rw [if_pos ((OrderedMap.contains_iff_mem_keys m timerKey).2 h), if_neg (not_not.2 h)]
  · have hc : ¬ m.contains timerKey = true := fun hc =>
      h ((OrderedMap.contains_iff_mem_keys m timerKey).1 hc)
    rw [if_neg hc, if_pos h]
    exact OrderedMap.put_of_notMem _ h

theorem hasComponentLevel_iff (m : PropertyMap) :
    m.hasComponentLevel [k.definitions, a.definitions] = true ↔
      ∃ e ∈ m.entries, k.definitions.isComponentLevel e.1 = true ∨
        a.definitions.isComponentLevel e.1 = true := by
  simp only [PropertyMap.hasComponentLevel, OrderedMap.keys, List.any_cons, List.any_nil,
    Bool.or_false, Bool.or_eq_true, List.any_map, List.any_eq_true, Function.comp_apply]
  constructor
  · rintro (⟨e, he, h⟩ | ⟨e, he, h⟩)
    · exact ⟨e, he, .inl h⟩
    · exact ⟨e, he, .inr h⟩
  · rintro ⟨e, he, h | h⟩
    · exact .inl ⟨e, he, h⟩
    · exact .inr ⟨e, he, h⟩

/-- Beside the name of a timer there are only options that the connector or the action takes. -/
theorem isEndpointLevel_of_mem_emitted {masking : Bool} {m : List (String × String)}
    {e : String × String} (h : e ∈ emitted masking c k a m) :
    k.definitions.isEndpointLevel e.1 = true ∨ a.definitions.isEndpointLevel e.1 = true ∨
      (a.scheme = "periodic-timer" ∧ e = ("timerName", "every")) := by
  have hlisted : ∀ e ∈ (selected k a m).map (shown masking (owner c a) k a),
      k.definitions.isEndpointLevel e.1 = true ∨ a.definitions.isEndpointLevel e.1 = true := by
    intro e he
    obtain ⟨d, hd, rfl⟩ := List.mem_map.1 he
    have hkey : (shown masking (owner c a) k a d).1 = d.1 := by
      rw [shown]
      split <;> rfl
    rw [hkey]
    obtain hd | hd := List.mem_append.1 hd
    · exact .inl (List.mem_filter.1 hd).2
    · exact .inr (Bool.and_eq_true_iff.1 (List.mem_filter.1 hd).2).1
  rw [emitted] at h
  split at h
  next htimer =>
    obtain h | h := List.mem_append.1 h
    · exact (hlisted e h).imp id .inl
    · exact .inr (.inr ⟨htimer.1, List.mem_singleton.1 h⟩)
  next => exact (hlisted e h).imp id .inl

/-- The options of an endpoint, masked or not, before a timer has its name. -/
theorem entries_masked (masking : Bool) (k : Connector) (m : PropertyMap) :
    (if masking then (options k a m).maskSecrets (owner c a) [k.definitions, a.definitions]
      else options k a m).entries =
      (selected k a m.entries).map (shown masking (owner c a) k a) := by
  cases masking with
  | true => rw [if_pos rfl, entries_maskSecrets, entries_options]
  | false => rw [if_neg Bool.false_ne_true, shown_false, List.map_id, entries_options]

/-- The endpoint of a step has the options that are listed from its configured properties. -/
theorem ofStep_eq_uri {x : Context} (hk : connectorOf x.request c a = .ok k) :
    ∃ options : PropertyMap,
      options.entries = emitted x.settings.maskSecrets c k a (merged c s) ∧
      ofStep x s c a = .ok (uri a a.scheme (emittedScheme c k a (merged c s)) options) := by
  set masked : PropertyMap :=
    if x.settings.maskSecrets then
      (options k a (c.configured.overlay s.configured)).maskSecrets (owner c a)
        [k.definitions, a.definitions]
    else options k a (c.configured.overlay s.configured) with hmasked
  have hentries : masked.entries =
      (selected k a (merged c s)).map (shown x.settings.maskSecrets (owner c a) k a) := by
    rw [hmasked, entries_masked, entries_configured]
  have hscheme : (if PropertyMap.hasComponentLevel (c.configured.overlay s.configured)
      [k.definitions, a.definitions] then owner c a else a.scheme) =
      emittedScheme c k a (merged c s) := by
    rw [emittedScheme, ← entries_configured]
    simp only [hasComponentLevel_iff]
  refine ⟨if a.scheme = timerScheme then withTimerName masked else masked, ?_, ?_⟩
  · by_cases ht : a.scheme = timerScheme
    · rw [if_pos ht, entries_withTimerName, emitted, ← hentries]
      by_cases hn : "timerName" ∈ masked.keys
      · rw [if_neg (not_not.2 hn), if_neg fun h => h.2 hn]
      · rw [if_pos hn, if_pos ⟨ht, hn⟩]
    · rw [if_neg ht, emitted, ← hentries, if_neg fun h => ht h.1]
  · rw [← hscheme, ofStep, hk, ownScheme_eq]
    rfl

/-- Visiting an endpoint step gives the endpoint of the step, in any workspace. -/
theorem visit_of_ofStep {x : Context} {i : StepCursor} {u : String}
    (hc : i.step.connection = some c) (ha : i.step.action = some a)
    (hu : ofStep x i.step c a = .ok u) (w : Workspace) :
    (((visitor x).visit i).runOn w).1 = .ok (some (.endpoint u)) := by
  rw [runOn_visit_endpoint, Compiled.endpointStep, ha, hc]
  simp only [hu]

/-- An endpoint step with an action, a connection and a connector that is found has the options that
are listed from its configured properties, and the scheme of the connection where one of them
belongs to the component. What neither the connector nor the action takes is not among them. -/
theorem visit_emits {x : Context} {i : StepCursor} (hc : i.step.connection = some c)
    (ha : i.step.action = some a) (hk : connectorOf x.request c a = .ok k) :
    ∃ options : PropertyMap,
      options.entries = emitted x.settings.maskSecrets c k a (merged c i.step) ∧
      (∀ w, (((visitor x).visit i).runOn w).1 =
        .ok (some (.endpoint (uri a a.scheme (emittedScheme c k a (merged c i.step)) options)))) ∧
      ∀ e ∈ options.entries,
        k.definitions.isEndpointLevel e.1 = true ∨ a.definitions.isEndpointLevel e.1 = true ∨
          (a.scheme = "periodic-timer" ∧ e = ("timerName", "every")) := by
  obtain ⟨options, hoptions, huri⟩ := ofStep_eq_uri (s := i.step) hk
  refine ⟨options, hoptions, visit_of_ofStep hc ha huri, fun e he => ?_⟩
  rw [hoptions] at he
  exact isEndpointLevel_of_mem_emitted he

/-- A timer's connector with a zone of its own and a token, and the action that fires it. -/
def timerConnector : Connector where
  id := "timer"
  definitions := OrderedMap.ofList
    [("zone", { componentLevel := true }), ("token", { secret := true })]

def timerAction : Action where
  scheme := "periodic-timer"
  groups := [{ definitions := OrderedMap.ofList [("period", {}), ("fixedRate", {})] }]

def timerConnection : Connection where
  id := some "7"
  connectorId := some "timer"
  configured := OrderedMap.ofList
    [("zone", "utc"), ("period", "1000"), ("note", "demo"), ("token", "s3cret")]

def timerStep : Step where
  kind := "endpoint"
  connection := some timerConnection
  action := some timerAction
  configured := OrderedMap.ofList [("fixedRate", "true"), ("period", "5000")]

def timerContext : Context where
  settings := { maskSecrets := true }
  request :=
    { integration := { name := "ticker", steps := [timerStep] }
      connectors := OrderedMap.ofList [("timer", timerConnector)] }

theorem visit_timerStep : ∃ options : PropertyMap,
    options.entries =
      [("token", "\x7b\x7bperiodic-timer-7.token\x7d\x7d"), ("period", "5000"),
        ("fixedRate", "true"), ("timerName", "every")] ∧
    ∀ w, (((visitor timerContext).visit ⟨1, timerStep, [timerStep], Nat.le_refl 1⟩).runOn w).1 =
      .ok (some (.endpoint (uri timerAction "periodic-timer" "periodic-timer-7" options))) := by
  have hk : connectorOf timerContext.request timerConnection timerAction = .ok timerConnector := by
    rfl
  obtain ⟨options, hoptions, hvisit, -⟩ := visit_emits (c := timerConnection) (a := timerAction)
    (i := ⟨1, timerStep, [timerStep], Nat.le_refl 1⟩) rfl rfl hk
  refine ⟨options, hoptions.trans (by decide), fun w => ?_⟩
  have hscheme : emittedScheme timerConnection timerConnector timerAction
      (merged timerConnection timerStep) = "periodic-timer-7" := by
    decide
  rw [hvisit w, hscheme]
  rfl

end

end RouteCompiler.Endpoint
