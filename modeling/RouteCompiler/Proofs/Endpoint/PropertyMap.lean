import RouteCompiler.Proofs.OrderedMap.Overlay
import RouteCompiler.Visitor.Endpoint

/-!
The algebra of property maps. Maps are merged by writing them over one another, and the merging is
associative, has the empty map as its identity and takes a map with itself to itself. Selecting
properties and masking secret values go through a merged map part by part, so it does not matter
whether properties are masked before they are merged and selected or behind it.
-/

namespace RouteCompiler

open OrderedMap (Merges overlayAll)

namespace PropertyMap

/-! ## Masking -/

theorem keys_maskSecrets (m : PropertyMap) (owner : String) (ds : List Definitions) :
    (m.maskSecrets owner ds).keys = m.keys :=
  OrderedMap.keys_mapEntries _ m

theorem get?_maskSecrets (m : PropertyMap) (owner : String) (ds : List Definitions) (key : String) :
    (m.maskSecrets owner ds).get? key = (m.get? key).map fun v =>
      if ds.any (·.isSecret key) then placeholder owner key else v :=
  m.get?_mapEntries _ key

/-- A value that is masked is masked as before. -/
theorem maskSecrets_maskSecrets (m : PropertyMap) (owner : String) (ds : List Definitions) :
    (m.maskSecrets owner ds).maskSecrets owner ds = m.maskSecrets owner ds := by
  refine OrderedMap.ext_get? ?_ fun key => ?_
  · rw [keys_maskSecrets]
  · simp only [get?_maskSecrets, Option.map_map]
    refine congrArg (Option.map · (m.get? key)) (funext fun v => ?_)
    rw [Function.comp_apply]
    split <;> rfl

theorem maskSecrets_overlay (owner : String) (ds : List Definitions) (a b : PropertyMap) :
    PropertyMap.maskSecrets (a.overlay b) owner ds =
      OrderedMap.overlay (a.maskSecrets owner ds) (b.maskSecrets owner ds) :=
  OrderedMap.mapEntries_overlay _ a b

theorem maskSecrets_overlayAll (owner : String) (ds : List Definitions) (ms : List PropertyMap) :
    PropertyMap.maskSecrets (overlayAll ms) owner ds =
      overlayAll (ms.map fun m => m.maskSecrets owner ds) :=
  OrderedMap.overlayAll_map rfl (maskSecrets_overlay owner ds) ms

theorem maskSecrets_filterKeys (owner : String) (ds : List Definitions) (p : String → Bool)
    (m : PropertyMap) : PropertyMap.maskSecrets (m.filterKeys p) owner ds =
      OrderedMap.filterKeys p (m.maskSecrets owner ds) :=
  OrderedMap.mapEntries_filterKeys _ p m

end PropertyMap

/-- The options of an endpoint can be masked, or else the properties that they are taken from. -/
theorem Endpoint.maskSecrets_options (k : Connector) (a : Action) (owner : String)
    (ds : List Definitions) (connection step : PropertyMap) :
    PropertyMap.maskSecrets (options k a (connection.overlay step)) owner ds =
      options k a
        (OrderedMap.overlay (connection.maskSecrets owner ds) (step.maskSecrets owner ds)) := by
  rw [options, options, PropertyMap.maskSecrets_overlay, PropertyMap.maskSecrets_filterKeys,
    PropertyMap.maskSecrets_filterKeys, PropertyMap.maskSecrets_overlay]

/-- Property maps are equal only with the order of their properties. Merging is associative over any
grouping, the empty map is its identity, and a map merged with itself is itself; the result has the
properties of all maps where they are first seen, each with the value of the last map that has it.
Selecting by key and masking can be done to the parts. Masking puts a reference in the place of each
secret value and changes nothing else, and done twice it changes nothing more. -/
theorem PropertyMap.merging_laws (owner : String) (ds : List Definitions) (p : String → Bool)
    (a b c : PropertyMap) (ms : List PropertyMap) (mss : List (List PropertyMap)) :
    (overlayAll [overlayAll [a, b], c] = overlayAll [a, b, c] ∧
      overlayAll [a, overlayAll [b, c]] = overlayAll [a, b, c] ∧
      overlayAll (mss.map overlayAll) = overlayAll mss.flatten) ∧
    (overlayAll [{}, a] = a ∧ overlayAll [a, {}] = a ∧ overlayAll [a, a] = a) ∧
    (∀ m, Merges ms m ↔ m = overlayAll ms) ∧
    (overlayAll ms).filterKeys p = overlayAll (ms.map (·.filterKeys p)) ∧
    ((a.maskSecrets owner ds).keys = a.keys ∧
      ∀ key, (a.maskSecrets owner ds).get? key = (a.get? key).map fun v =>
        if ∃ d ∈ ds, d.isSecret key = true then "\x7b\x7b" ++ owner ++ "." ++ key ++ "\x7d\x7d"
        else v) ∧
    (a.maskSecrets owner ds).maskSecrets owner ds = a.maskSecrets owner ds ∧
    PropertyMap.maskSecrets (overlayAll ms) owner ds =
      overlayAll (ms.map fun m => m.maskSecrets owner ds) := by
  refine ⟨⟨?_, ?_, (OrderedMap.overlayAll_flatten mss).symm⟩, ⟨?_, ?_, ?_⟩,
    fun _ => OrderedMap.merges_iff, ?_, ⟨keys_maskSecrets a owner ds, fun key => ?_⟩,
    maskSecrets_maskSecrets a owner ds, maskSecrets_overlayAll owner ds ms⟩
  · calc overlayAll [overlayAll [a, b], c] = overlayAll [overlayAll [a, b], overlayAll [c]] := by
          rw [OrderedMap.overlayAll_singleton]
      _ = overlayAll [a, b, c] := (OrderedMap.overlayAll_flatten [[a, b], [c]]).symm
  · calc overlayAll [a, overlayAll [b, c]] = overlayAll [overlayAll [a], overlayAll [b, c]] := by
          rw [OrderedMap.overlayAll_singleton]
      _ = overlayAll [a, b, c] := (OrderedMap.overlayAll_flatten [[a], [b, c]]).symm
  · rw [OrderedMap.overlayAll_pair]
    exact OrderedMap.empty_overlay a
  · rw [OrderedMap.overlayAll_pair]
    exact OrderedMap.overlay_empty a
  · rw [OrderedMap.overlayAll_pair, OrderedMap.overlay_self]
  · exact OrderedMap.overlayAll_map rfl (OrderedMap.filterKeys_overlay p) ms
  · simp only [get?_maskSecrets, List.any_eq_true]
    rfl

/-- A property that is merged again keeps its place. -/
example : overlayAll [OrderedMap.ofList [("a", "1"), ("b", "2")],
    OrderedMap.ofList [("c", "3"), ("a", "4")]] =
      OrderedMap.ofList [("a", "4"), ("b", "2"), ("c", "3")] := by decide

end RouteCompiler
