import RouteCompiler.Proofs.Endpoint.Uri
import RouteCompiler.Proofs.OrderedMap.Overlay

/-!
The definitions of an action, which are spread over groups. Only the sequence of the definitions
counts, and not how it is cut into groups: a name has the place of its first definition and the
content of its last one, and by that one it is endpoint-level or component-level, and secret or not.
-/

namespace RouteCompiler

open OrderedMap (LastGives Merges)

/-! ## Groups -/

namespace DefinitionGroup

variable {g h : DefinitionGroup}

/-- The group has the definitions of two others, one after the other. -/
def Joins (j g h : DefinitionGroup) : Prop :=
  j.definitions.entries = g.definitions.entries ++ h.definitions.entries

/-- Two groups can be joined if no name is defined in both, and only then. -/
theorem exists_joins_iff : (∃ j : DefinitionGroup, j.Joins g h) ↔
    ∀ name ∈ g.definitions.keys, name ∉ h.definitions.keys := by
  constructor
  · rintro ⟨j, hj⟩ name hg hh
    have hnodup := j.definitions.nodup
    rw [hj, List.map_append] at hnodup
    exact (List.nodup_append.1 hnodup).2.2 name hg name hh rfl
  · intro hdisjoint
    refine ⟨{ definitions := g.definitions.overlay h.definitions }, ?_⟩
    have hold : g.definitions.entries.map (fun e => (e.1, (h.definitions.get? e.1).getD e.2)) =
        g.definitions.entries := by
      refine (List.map_congr_left fun e he => ?_).trans (List.map_id _)
      have hnone := OrderedMap.get?_eq_none_iff.2 (hdisjoint e.1 (List.mem_map_of_mem he))
      rw [hnone]
      rfl
    have hnew : h.definitions.entries.filter (fun e => decide (e.1 ∉ g.definitions.keys)) =
        h.definitions.entries := by
      refine List.filter_eq_self.2 fun e he => decide_eq_true fun hg => ?_
      exact hdisjoint e.1 hg (List.mem_map_of_mem he)
    rw [Joins, OrderedMap.entries_overlay, hold, hnew]

end DefinitionGroup

namespace Action

variable {a b : Action}

theorem definitions_congr (h : b.written = a.written) : b.definitions = a.definitions := by
  rw [definitions_eq, definitions_eq, h]

theorem definitions_of_joins (a : Action) (before after : List DefinitionGroup)
    {g h j : DefinitionGroup} (hj : j.Joins g h) :
    { a with groups := before ++ j :: after }.definitions =
      { a with groups := before ++ g :: h :: after }.definitions := by
  refine definitions_congr ?_
  simp only [written, List.flatMap_append, List.flatMap_cons]
  rw [hj, List.append_assoc]

theorem definitions_of_empty (a : Action) (before after : List DefinitionGroup)
    {g : DefinitionGroup} (hg : g.definitions = {}) :
    { a with groups := before ++ g :: after }.definitions =
      { a with groups := before ++ after }.definitions := by
  refine definitions_congr ?_
  simp only [written, List.flatMap_append, List.flatMap_cons, hg]
  rfl

end Action

/-! ## What a name is -/

/-- A definition says what its name is. -/
theorem Definitions.levels_of_get? {ds : Definitions} {name : String} {d : PropertyDefinition}
    (h : ds.get? name = some d) :
    ds.isEndpointLevel name = !d.componentLevel ∧ ds.isComponentLevel name = d.componentLevel ∧
      ds.isSecret name = d.secret := by
  rw [isEndpointLevel, isComponentLevel, isSecret, h]
  exact ⟨rfl, rfl, rfl⟩

namespace Action

variable {a : Action} {name : String}

/-- Some group defines the name. -/
def Defines (a : Action) (name : String) : Prop := ∃ g ∈ a.groups, name ∈ g.definitions.keys

theorem merges_definitions (a : Action) :
    Merges (a.groups.map (·.definitions)) a.definitions := OrderedMap.merges_overlayAll _

theorem isSome_get?_definitions : (a.definitions.get? name).isSome ↔ a.Defines name := by
  refine (OrderedMap.contains_iff_mem_keys _ _).trans ?_
  rw [a.merges_definitions.mem_keys_iff]
  simp [Defines]

/-- What the last definition of a name says is what the name is. -/
theorem levels_of_lastGives {d : PropertyDefinition}
    (h : LastGives (a.groups.map (·.definitions)) name d) :
    a.definitions.isEndpointLevel name = !d.componentLevel ∧
      a.definitions.isComponentLevel name = d.componentLevel ∧
      a.definitions.isSecret name = d.secret :=
  Definitions.levels_of_get? ((a.merges_definitions.get?_iff name d).2 h)

/-- A name is endpoint-level, component-level or not defined. -/
theorem level_cases (a : Action) (name : String) :
    (a.definitions.isEndpointLevel name = true ∧ a.definitions.isComponentLevel name = false ∧
        a.Defines name) ∨
      (a.definitions.isEndpointLevel name = false ∧ a.definitions.isComponentLevel name = true ∧
        a.Defines name) ∨
      (a.definitions.isEndpointLevel name = false ∧ a.definitions.isComponentLevel name = false ∧
        ¬ a.Defines name ∧ a.definitions.isSecret name = false) := by
  obtain ⟨he, hsome⟩ | ⟨he, hc, hnone⟩ := a.definitions.levels name
  · have hdefined : a.Defines name := isSome_get?_definitions.1 hsome
    cases hc : a.definitions.isComponentLevel name with
    | false => exact .inl ⟨by rw [he, hc]; rfl, rfl, hdefined⟩
    | true => exact .inr (.inl ⟨by rw [he, hc]; rfl, rfl, hdefined⟩)
  · have hundefined : ¬ a.Defines name := by
      rw [← isSome_get?_definitions, hnone]
      exact nofun
    have hs : a.definitions.isSecret name = false := by
      rw [Definitions.isSecret, hnone]
      rfl
    exact .inr (.inr ⟨he, hc, hundefined, hs⟩)

end Action

/-- An action has every name that its groups define, once, where it is defined first and as it is
defined last. So groups without definitions do not count, nor does it whether definitions stand in
one group or in two. The last definition of a name says what it is, and a name that is not defined
is nothing. -/
theorem Action.flattens_groups (a : Action) :
    (∀ ds : Definitions, Merges (a.groups.map (·.definitions)) ds ↔ ds = a.definitions) ∧
    (∀ b : Action, b.written = a.written → b.definitions = a.definitions) ∧
    (∀ before after (g h j : DefinitionGroup), j.Joins g h →
      { a with groups := before ++ j :: after }.definitions =
        { a with groups := before ++ g :: h :: after }.definitions) ∧
    (∀ g h : DefinitionGroup, (∃ j : DefinitionGroup, j.Joins g h) ↔
      ∀ name ∈ g.definitions.keys, name ∉ h.definitions.keys) ∧
    (∀ before after (g : DefinitionGroup), g.definitions = {} →
      { a with groups := before ++ g :: after }.definitions =
        { a with groups := before ++ after }.definitions) ∧
    (∀ name d, LastGives (a.groups.map (·.definitions)) name d →
      a.definitions.isEndpointLevel name = !d.componentLevel ∧
        a.definitions.isComponentLevel name = d.componentLevel ∧
        a.definitions.isSecret name = d.secret) ∧
    ∀ name,
      (a.definitions.isEndpointLevel name = true ∧ a.definitions.isComponentLevel name = false ∧
          a.Defines name) ∨
        (a.definitions.isEndpointLevel name = false ∧ a.definitions.isComponentLevel name = true ∧
          a.Defines name) ∨
        (a.definitions.isEndpointLevel name = false ∧
          a.definitions.isComponentLevel name = false ∧ ¬ a.Defines name ∧
          a.definitions.isSecret name = false) := by
  refine ⟨fun _ => OrderedMap.merges_iff, fun _ => definitions_congr, ?_,
    fun _ _ => DefinitionGroup.exists_joins_iff, ?_, fun _ _ => levels_of_lastGives, level_cases a⟩
  · intro before after g h j hj
    exact definitions_of_joins a before after hj
  · intro before after g hg
    exact definitions_of_empty a before after hg

/-- The last group defines a name of the first one again. -/
def regroupedAction : Action where
  scheme := "search"
  groups :=
    [ { definitions := OrderedMap.ofList
          [("first", { kind := "path" }), ("shared", { kind := "path" })] },
      { definitions := OrderedMap.ofList [("second", {})] },
      { definitions := OrderedMap.ofList [("shared", { secret := true })] } ]

/-- The second and the third group of the action in one. -/
def joinedGroup : DefinitionGroup where
  definitions := OrderedMap.ofList [("second", {}), ("shared", { secret := true })]

theorem flattens_regroupedAction :
    regroupedAction.definitions.entries =
      [("first", { kind := "path" }), ("shared", { secret := true }), ("second", {})] ∧
    { regroupedAction with
        groups := regroupedAction.groups.take 1 ++ [joinedGroup] }.definitions =
      regroupedAction.definitions ∧
    regroupedAction.definitions.isEndpointLevel "shared" = true ∧
    regroupedAction.definitions.isSecret "shared" = true := by
  obtain ⟨-, -, hjoin, -, -, hlast, -⟩ := regroupedAction.flattens_groups
  have hshared := hlast "shared" { secret := true }
    ⟨(regroupedAction.groups.take 2).map (·.definitions),
      OrderedMap.ofList [("shared", { secret := true })], [], rfl, rfl,
      fun _ h => absurd h List.not_mem_nil⟩
  refine ⟨by decide, ?_, hshared.1, hshared.2.2⟩
  exact hjoin (regroupedAction.groups.take 1) []
    { definitions := OrderedMap.ofList [("second", {})] }
    { definitions := OrderedMap.ofList [("shared", { secret := true })] } joinedGroup rfl

end RouteCompiler
