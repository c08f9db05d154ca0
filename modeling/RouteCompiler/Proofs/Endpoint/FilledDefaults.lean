import Mathlib.Algebra.Order.BigOperators.Group.List
import Mathlib.Algebra.Order.Ring.Nat
import RouteCompiler.Proofs.Endpoint.Options
import RouteCompiler.Proofs.Request.SecretDefaults

/-!
Defaults in the path of an endpoint. A required positional property without a value gets its default
as its segment, after secret values have been masked. So the URI depends on the default of a secret
property exactly if the property is filled in like this, and then shows it.
-/

namespace RouteCompiler.Endpoint

variable {a : Action} {options : PropertyMap} {name : String} {d : PropertyDefinition}

/-- A required positional property of the action that the step is not configured with. The name of a
timer counts as configured. -/
structure FillsIn (c : Connection) (s : Step) (k : Connector) (a : Action) (name : String)
    (d : PropertyDefinition) : Prop where
  defined : a.lastDefinition? name = some d
  positional : d.isPositional = true
  required : d.required = true
  notConfigured : name ∉ (selected k a (merged c s)).map Prod.fst
  notTimer : ¬ (a.scheme = "periodic-timer" ∧ name = "timerName")

/-! ## Segments -/

theorem mem_positional (hd : a.lastDefinition? name = some d) (hp : d.isPositional = true) :
    name ∈ a.positional := by
  have hname : name ∈ a.definitions.keys := by
    rw [← OrderedMap.contains_iff_mem_keys, OrderedMap.contains, a.get?_definitions, hd]
    rfl
  rw [Action.keys_definitions] at hname
  refine List.mem_filter.2 ⟨hname, ?_⟩
  rw [hd]
  exact hp

theorem exists_lastDefinition?_of_mem_positional (h : name ∈ a.positional) :
    ∃ d, a.lastDefinition? name = some d ∧ d.isPositional = true :=
  (Option.any_eq_true _ _).1 (List.mem_filter.1 h).2

theorem segment_eq (hd : a.lastDefinition? name = some d) (options : PropertyMap) :
    segment a options name = segmentOf options name d := by
  rw [segment, hd]
  rfl

theorem segment_mapSecretDefaults (hd : a.lastDefinition? name = some d) (f : DefaultChange) :
    segment (a.mapSecretDefaults f) options name =
      segmentOf options name (d.mapSecretDefault f) := by
  refine segment_eq ?_ options
  rw [Action.lastDefinition?_mapSecretDefaults, hd]
  rfl

/-- A default that is not filled in, or not secret, may change as it likes. -/
theorem segmentOf_mapSecretDefault (f : DefaultChange)
    (h : d.secret = true → d.required = true → options.get? name ≠ none) :
    segmentOf options name (d.mapSecretDefault f) = segmentOf options name d := by
  by_cases hs : d.secret = true
  · rw [segmentOf, segmentOf, d.required_mapSecretDefault]
    cases ho : options.get? name with
    | some v => rfl
    | none =>
      have hr : ¬ d.required = true := fun hr => h hs hr ho
      dsimp only
      rw [if_neg hr, if_neg hr]
  · rw [PropertyDefinition.mapSecretDefault_of_not_secret f hs]

theorem segmentOf_of_required (hr : d.required = true) (ho : options.get? name = none) :
    segmentOf options name d = ":" ++ d.defaultValue.getD "" := by
  rw [segmentOf, ho]
  exact if_pos hr

/-- A longer default that is filled in makes its segment longer, and any other leaves it alone. -/
theorem length_segmentOf_extend (options : PropertyMap) (name : String) (d : PropertyDefinition) :
    (segmentOf options name (d.mapSecretDefault .extend)).length =
      (segmentOf options name d).length +
        if d.secret = true ∧ d.required = true ∧ options.get? name = none then 1 else 0 := by
  by_cases h : d.secret = true ∧ d.required = true ∧ options.get? name = none
  · obtain ⟨hs, hr, ho⟩ := h
    have hr' : (d.mapSecretDefault .extend).required = true := by
      rw [PropertyDefinition.required_mapSecretDefault, hr]
    rw [if_pos ⟨hs, hr, ho⟩, segmentOf_of_required hr ho, segmentOf_of_required hr' ho,
      PropertyDefinition.mapSecretDefault_of_secret .extend hs]
    simp only [DefaultChange.extend, Option.getD_some, String.length_append]
    rfl
  · rw [if_neg h, Nat.add_zero, segmentOf_mapSecretDefault]
    exact fun hs hr ho => h ⟨hs, hr, ho⟩

/-! ## The URI -/

/-- Where no secret default is filled in, the URI does not depend on secret defaults. -/
theorem uri_mapSecretDefaults (f : DefaultChange) (base scheme : String)
    (h : ∀ name d, a.lastDefinition? name = some d → d.isPositional = true → d.required = true →
      d.secret = true → options.get? name ≠ none) :
    uri (a.mapSecretDefaults f) base scheme options = uri a base scheme options := by
  have hsegments : a.positional.map (segment (a.mapSecretDefaults f) options) =
      a.positional.map (segment a options) := by
    refine List.map_congr_left fun name hname => ?_
    obtain ⟨d, hd, hp⟩ := exists_lastDefinition?_of_mem_positional hname
    rw [segment_mapSecretDefaults hd, segment_eq hd,
      segmentOf_mapSecretDefault f fun hs hr => h name d hd hp hr hs]
  rw [uri_eq, uri_eq, a.positional_mapSecretDefaults, hsegments]

theorem length_join (texts : List String) :
    (String.join texts).length = (texts.map String.length).sum := by
  induction texts with
  | nil => rfl
  | cons text texts ih =>
    rw [String.join_cons, String.length_append, ih, List.map_cons, List.sum_cons]

/-- Where one is, the URI depends on it. -/
theorem length_uri_lt (base scheme : String) (hd : a.lastDefinition? name = some d)
    (hp : d.isPositional = true) (hr : d.required = true) (hs : d.secret = true)
    (ho : options.get? name = none) :
    (uri a base scheme options).length <
      (uri (a.mapSecretDefaults .extend) base scheme options).length := by
  have hlt : ((a.positional.map (segment a options)).map String.length).sum <
      ((a.positional.map (segment (a.mapSecretDefaults .extend) options)).map
        String.length).sum := by
    rw [List.map_map, List.map_map]
    refine List.sum_lt_sum _ _ (fun other hother => ?_) ⟨name, mem_positional hd hp, ?_⟩
    · obtain ⟨e, he, -⟩ := exists_lastDefinition?_of_mem_positional hother
      rw [Function.comp_apply, Function.comp_apply, segment_mapSecretDefaults he, segment_eq he,
        length_segmentOf_extend]
      exact Nat.le_add_right _ _
    · rw [Function.comp_apply, Function.comp_apply, segment_mapSecretDefaults hd, segment_eq hd,
        length_segmentOf_extend, if_pos ⟨hs, hr, ho⟩]
      exact Nat.lt_succ_self _
  rw [uri_eq, uri_eq, a.positional_mapSecretDefaults]
  simp only [String.length_append, length_join]
  omega

/-- A default that is filled in stands in the URI as it is. -/
theorem default_infix_uri (base scheme : String) (hd : a.lastDefinition? name = some d)
    (hp : d.isPositional = true) (hr : d.required = true) (ho : options.get? name = none) :
    (":" ++ d.defaultValue.getD "").toList <:+: (uri a base scheme options).toList := by
  obtain ⟨before, after, hsplit⟩ := List.append_of_mem (mem_positional hd hp)
  have hpath : String.join (a.positional.map (segment a options)) =
      String.join (before.map (segment a options)) ++
        ((":" ++ d.defaultValue.getD "") ++ String.join (after.map (segment a options))) := by
    rw [hsplit, List.map_append, List.map_cons, segment_eq hd, segmentOf_of_required hr ho,
      String.join_append, String.join_cons]
  rw [uri_eq, hpath]
  generalize ":" ++ d.defaultValue.getD "" = shown
  simp only [String.toList_append, List.append_assoc]
  exact (List.prefix_append _ _).isInfix.trans
    ((List.suffix_append _ _).trans (List.suffix_append _ _)).isInfix

end RouteCompiler.Endpoint
