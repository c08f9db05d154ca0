import RouteCompiler.Proofs.OrderedMap
import RouteCompiler.Visitor.Endpoint

/-!
The URI of an endpoint in closed form. The definitions of an action are read here as they are
written, group after group: the last definition of a name says what the property is, and the first
one where it stands. Every option goes to one place, a positional one into its segment and any other
into the query, and of the scheme that the path was begun with nothing is left.
-/

namespace RouteCompiler

namespace Action

/-- The definitions of all groups, as they are written. -/
def written (a : Action) : List (String × PropertyDefinition) :=
  a.groups.flatMap fun g => g.definitions.entries

def lastDefinition? (a : Action) (name : String) : Option PropertyDefinition :=
  OrderedMap.last? name a.written

/-- The names whose last definition is positional, in the order of their first definitions. -/
def positional (a : Action) : List String :=
  (a.written.map Prod.fst).eraseDups.filter fun name =>
    (a.lastDefinition? name).any (·.isPositional)

theorem definitions_eq (a : Action) : a.definitions = OrderedMap.ofList a.written := by
  rw [definitions, OrderedMap.overlayAll_eq_ofList, List.flatMap_map]
  rfl

theorem get?_definitions (a : Action) (name : String) :
    a.definitions.get? name = a.lastDefinition? name := by
  rw [definitions_eq, OrderedMap.get?_ofList]
  rfl

theorem keys_definitions (a : Action) :
    a.definitions.keys = (a.written.map Prod.fst).eraseDups := by
  rw [definitions_eq, OrderedMap.keys_ofList]

theorem nodup_positional (a : Action) : a.positional.Nodup := by
  rw [positional, ← keys_definitions]
  exact a.definitions.nodup_keys.filter _

end Action

namespace Endpoint

/-! ## Segments -/

/-- The segment of a property: its value, or its default if it is required. -/
def segmentOf (options : PropertyMap) (name : String) (d : PropertyDefinition) : String :=
  match options.get? name with
  | some v => ":" ++ v
  | none => if d.required then ":" ++ d.defaultValue.getD "" else ""

/-- The segment of a positional name. -/
def segment (a : Action) (options : PropertyMap) (name : String) : String :=
  ((a.lastDefinition? name).map (segmentOf options name)).getD ""

/-- Taking one option out changes the segments of the other names in nothing. -/
theorem segmentOf_erase {options : PropertyMap} {k name : String} (h : name ≠ k)
    (d : PropertyDefinition) : segmentOf (options.erase k) name d = segmentOf options name d := by
  unfold segmentOf OrderedMap.erase
  rw [OrderedMap.get?_filterKeys, if_pos (decide_eq_true h)]

theorem addSegment_of_not_positional {d : String × PropertyDefinition}
    (h : d.2.isPositional = false) (acc : String × PropertyMap) : addSegment acc d = acc := by
  rw [addSegment, h]
  rfl

/-- A positional option goes into the path and leaves the map; one that is not there leaves the map
as it is. -/
theorem addSegment_of_positional {d : String × PropertyDefinition}
    (h : d.2.isPositional = true) (path : String) (options : PropertyMap) :
    addSegment (path, options) d = (path ++ segmentOf options d.1 d.2, options.erase d.1) := by
  rw [addSegment, h, segmentOf]
  cases ho : options.get? d.1 with
  | some v => simp [String.append_assoc]
  | none =>
    have he : options.erase d.1 = options := OrderedMap.erase_of_get?_eq_none options ho
    by_cases hr : d.2.required = true <;> simp [hr, he, String.append_assoc]

def positionalIn (ds : List (String × PropertyDefinition)) : List (String × PropertyDefinition) :=
  ds.filter fun d => d.2.isPositional

/-- Definition by definition the positional options move from the map into the path. -/
theorem foldl_addSegment {ds : List (String × PropertyDefinition)}
    (hn : (ds.map Prod.fst).Nodup) (path : String) (options : PropertyMap) :
    ds.foldl addSegment (path, options) =
      (path ++ String.join ((positionalIn ds).map fun d => segmentOf options d.1 d.2),
        options.filterKeys fun k => decide (k ∉ (positionalIn ds).map Prod.fst)) := by
  induction ds generalizing path options with
  | nil =>
    have hkept : options.filterKeys (fun _ => true) = options := by
      apply OrderedMap.ext
      exact List.filter_eq_self.2 fun _ _ => rfl
    simpa [positionalIn] using hkept.symm
  | cons d ds ih =>
    obtain ⟨hd, hn⟩ := List.nodup_cons.1 hn
    rw [List.foldl_cons]
    cases hp : d.2.isPositional with
    | false =>
      have hds : positionalIn (d :: ds) = positionalIn ds := List.filter_cons_of_neg (by simp [hp])
      rw [addSegment_of_not_positional hp, ih hn, hds]
    | true =>
      have hds : positionalIn (d :: ds) = d :: positionalIn ds := List.filter_cons_of_pos hp
      -- the other names are not the one taken out, so their segments are those of the whole map
      have hseg : (positionalIn ds).map (fun e => segmentOf (options.erase d.1) e.1 e.2) =
          (positionalIn ds).map fun e => segmentOf options e.1 e.2 := by
        refine List.map_congr_left fun e he => segmentOf_erase ?_ e.2
        intro heq
        exact hd (heq ▸ List.mem_map_of_mem (List.mem_filter.1 he).1)
      have hkept : (fun k => decide (k ≠ d.1) && decide (k ∉ (positionalIn ds).map Prod.fst)) =
          fun k => decide (k ∉ d.1 :: (positionalIn ds).map Prod.fst) := by
        funext k
        rw [Bool.eq_iff_iff]
        simp only [Bool.and_eq_true, decide_eq_true_eq, List.mem_cons, not_or]
      rw [addSegment_of_positional hp, ih hn, hds, hseg, OrderedMap.erase,
        OrderedMap.filterKeys_filterKeys, List.map_cons, List.map_cons, hkept, String.join_cons,
        String.append_assoc]

/-! ## The URI -/

theorem swapScheme_append (base scheme rest : String) :
    swapScheme base scheme (base ++ rest) = scheme ++ rest := by
  rw [swapScheme]
  by_cases h : scheme = base
  · simp [h]
  · rw [if_pos (by simp [h]), ← String.toList_inj]
    simp [← String.length_toList]

theorem map_fst_positionalIn (a : Action) :
    (positionalIn a.definitions.entries).map Prod.fst = a.positional := by
  rw [positionalIn, OrderedMap.map_fst_filter, Action.positional, Action.keys_definitions]
  simp only [Action.get?_definitions]

theorem map_segmentOf (a : Action) (options : PropertyMap) :
    (positionalIn a.definitions.entries).map (fun d => segmentOf options d.1 d.2) =
      a.positional.map (segment a options) := by
  rw [← map_fst_positionalIn, List.map_map]
  refine List.map_congr_left fun d hd => ?_
  have hdef : a.lastDefinition? d.1 = some d.2 := by
    rw [← a.get?_definitions, OrderedMap.get?_of_mem _ (List.mem_filter.1 hd).1]
  rw [Function.comp_apply, segment, hdef]
  rfl

theorem query_eq (options : PropertyMap) : query options =
    if options.entries = [] then ""
    else "?" ++ "&".intercalate (options.entries.map fun e => e.1 ++ "=" ++ e.2) := by
  rw [query, OrderedMap.isEmpty]
  simp only [List.isEmpty_iff]

theorem uri_eq (a : Action) (base scheme : String) (options : PropertyMap) :
    uri a base scheme options = scheme ++ String.join (a.positional.map (segment a options)) ++
      query (options.filterKeys fun k => decide (k ∉ a.positional)) := by
  rw [uri, foldl_addSegment a.definitions.nodup, map_segmentOf, map_fst_positionalIn]
  dsimp only
  rw [String.append_assoc, swapScheme_append, String.append_assoc]

/-- Positional names that are configured and the names that are left are the names of the options,
each once. -/
theorem perm_keys (a : Action) (options : PropertyMap) :
    (a.positional.filter options.contains ++
      options.keys.filter fun k => decide (k ∉ a.positional)).Perm options.keys := by
  have hseg : (a.positional.filter options.contains).Perm
      (options.keys.filter fun k => decide (k ∈ a.positional)) := by
    rw [List.perm_ext_iff_of_nodup (a.nodup_positional.filter _) (options.nodup_keys.filter _)]
    intro k
    rw [List.mem_filter, List.mem_filter, OrderedMap.contains_iff_mem_keys, decide_eq_true_iff]
    exact and_comm
  refine (hseg.append_right _).trans ?_
  simpa using List.filter_append_perm (fun k => decide (k ∈ a.positional)) options.keys

/-- The URI is the scheme, a segment for each positional name, and the other options as a query.
Every option has one place there. The scheme of the action, which the path was begun with, leaves no
trace. -/
theorem uri_closedForm (a : Action) (base scheme : String) (options : PropertyMap) :
    let queried := options.entries.filter fun e => decide (e.1 ∉ a.positional)
    uri a base scheme options =
        scheme ++ String.join (a.positional.map (segment a options)) ++
          (if queried = [] then ""
           else "?" ++ "&".intercalate (queried.map fun e => e.1 ++ "=" ++ e.2)) ∧
      (∀ base', uri a base' scheme options = uri a base scheme options) ∧
      a.positional.Nodup ∧
      (a.positional.filter options.contains ++ queried.map Prod.fst).Perm options.keys := by
  intro queried
  have hkeys : queried.map Prod.fst = options.keys.filter fun k => decide (k ∉ a.positional) :=
    OrderedMap.keys_filterKeys (fun k => decide (k ∉ a.positional)) options
  refine ⟨?_, fun base' => ?_, a.nodup_positional, ?_⟩
  · rw [uri_eq, query_eq]
    rfl
  · rw [uri_eq, uri_eq]
  · rw [hkeys]
    exact perm_keys a options

end Endpoint
end RouteCompiler
