import Mathlib.Data.List.Forall2
import RouteCompiler.Visitor.Endpoint

/-!
Property maps that agree but for the values of hidden keys. Laying maps over one another and
selecting keys keep the agreement; it becomes equality where no key is hidden any more, or where
hidden values have been replaced.
-/

namespace RouteCompiler

open List (Forall₂)

theorem OrderedMap.mem_keys_insertMany {κ α : Type} [DecidableEq κ] {m : OrderedMap κ α}
    {es : List (κ × α)} {k : κ} (h : k ∈ (m.insertMany es).keys) :
    k ∈ m.keys ∨ k ∈ es.map Prod.fst := by
  induction es generalizing m with
  | nil => exact .inl h
  | cons e es ih =>
    obtain h | h := ih (m := m.insert e.1 e.2) h
    · rw [OrderedMap.keys_insert] at h
      split at h
      · exact .inl h
      · obtain h | h := List.mem_append.1 h
        · exact .inl h
        · exact .inr (List.mem_cons.2 (.inl (List.mem_singleton.1 h)))
    · exact .inr (List.mem_cons_of_mem _ h)

namespace PropertyMap

/-- The same key, with the same value unless it is hidden. -/
def AgreeEntry (hidden : String → Prop) (e e' : String × String) : Prop :=
  e.1 = e'.1 ∧ (¬ hidden e.1 → e.2 = e'.2)

/-- The same keys in the same order, with the same values but at hidden keys. -/
def Agree (hidden : String → Prop) (m m' : PropertyMap) : Prop :=
  Forall₂ (AgreeEntry hidden) m.entries m'.entries

variable {hidden : String → Prop} {m m' n n' : PropertyMap}

theorem agree_put {e e' : String × String} (he : AgreeEntry hidden e e')
    {es es' : List (String × String)} (h : Forall₂ (AgreeEntry hidden) es es') :
    Forall₂ (AgreeEntry hidden) (OrderedMap.put e.1 e.2 es) (OrderedMap.put e'.1 e'.2 es') := by
  obtain ⟨k, v⟩ := e
  obtain ⟨k', v'⟩ := e'
  obtain ⟨rfl, hv⟩ := he
  induction h with
  | nil => exact .cons ⟨rfl, hv⟩ .nil
  | @cons d d' es es' hd h ih =>
    obtain ⟨j, u⟩ := d
    obtain ⟨j', u'⟩ := d'
    obtain ⟨rfl, hu⟩ := hd
    by_cases hk : j = k
    · subst hk
      simp only [OrderedMap.put, if_true]
      exact .cons ⟨rfl, hv⟩ h
    · simp only [OrderedMap.put, if_neg hk]
      exact .cons ⟨rfl, hu⟩ ih

namespace Agree

theorem mono {hidden' : String → Prop} (h : Agree hidden m m')
    (hh : ∀ k, hidden k → hidden' k) : Agree hidden' m m' :=
  List.Forall₂.imp (fun _ _ he => ⟨he.1, fun hn => he.2 fun hk => hn (hh _ hk)⟩) h

theorem keys_eq (h : Agree hidden m m') : m.keys = m'.keys := by
  rw [Agree] at h
  simp only [OrderedMap.keys]
  generalize m.entries = es, m'.entries = es' at h ⊢
  induction h with
  | nil => rfl
  | cons he h ih => rw [List.map_cons, List.map_cons, he.1, ih]

theorem overlay (h : Agree hidden m m') (hn : Agree hidden n n') :
    Agree hidden (m.overlay n) (m'.overlay n') := by
  rw [Agree] at hn
  unfold OrderedMap.overlay OrderedMap.insertMany
  generalize n.entries = es, n'.entries = es' at hn ⊢
  induction hn generalizing m m' with
  | nil => exact h
  | cons he hn ih => exact ih (agree_put he h)

theorem filterKeys (h : Agree hidden m m') (p : String → Bool) :
    Agree hidden (m.filterKeys p) (m'.filterKeys p) := by
  unfold Agree OrderedMap.filterKeys at *
  dsimp only
  generalize m.entries = es, m'.entries = es' at h ⊢
  induction h with
  | nil => exact .nil
  | cons he h ih =>
    simp only [List.filter_cons, ← he.1]
    split
    · exact .cons he ih
    · exact ih

/-- A replacement that ignores hidden values makes agreeing maps equal. -/
theorem mapEntries_eq (h : Agree hidden m m') {f : String → String → String}
    (hf : ∀ k ∈ m.keys, hidden k → ∀ v v', f k v = f k v') : m.mapEntries f = m'.mapEntries f := by
  apply OrderedMap.ext
  rw [Agree] at h
  rw [OrderedMap.keys] at hf
  unfold OrderedMap.mapEntries
  dsimp only
  generalize m.entries = es, m'.entries = es' at h hf ⊢
  induction h with
  | nil => rfl
  | @cons e e' es es' he h ih =>
    have hv : f e.1 e.2 = f e'.1 e'.2 := by
      by_cases hh : hidden e.1
      · rw [hf e.1 (by simp) hh e.2 e'.2, he.1]
      · rw [he.1, he.2 hh]
    have ht := ih fun k hk => hf k (by rw [List.map_cons]; exact List.mem_cons_of_mem _ hk)
    rw [List.map_cons, List.map_cons, hv, he.1, ht]

theorem mapEntries_self (m : PropertyMap) : m.mapEntries (fun _ v => v) = m := by
  apply OrderedMap.ext
  simp [OrderedMap.mapEntries]

/-- Maps without hidden keys agree only if they are equal. -/
theorem eq_of_not_hidden (h : Agree hidden m m') (hk : ∀ k ∈ m.keys, ¬ hidden k) : m = m' := by
  have he := h.mapEntries_eq (f := fun _ v => v) fun k hm hh => absurd hh (hk k hm)
  rwa [mapEntries_self, mapEntries_self] at he

theorem hasComponentLevel_eq (h : Agree hidden m m') (ds : List Definitions) :
    hasComponentLevel m ds = hasComponentLevel m' ds := by
  simp only [hasComponentLevel, h.keys_eq]

end Agree
end PropertyMap

/-! ## Endpoints -/

namespace Endpoint

/-- A key whose value no endpoint may depend on: with masking a key that is secret for the connector
or the action, and in any case a key that is endpoint-level for neither. -/
def Hidden (masking : Bool) (k : Connector) (a : Action) (key : String) : Prop :=
  (masking = true ∧ (k.definitions.isSecret key = true ∨ a.definitions.isSecret key = true)) ∨
    (k.definitions.isEndpointLevel key = false ∧ a.definitions.isEndpointLevel key = false)

variable {k : Connector} {a : Action} {m m' : PropertyMap}

/-- The options of an endpoint are endpoint-level for the connector or the action. -/
theorem isEndpointLevel_of_mem_options {key : String} (h : key ∈ (options k a m).keys) :
    k.definitions.isEndpointLevel key = true ∨ a.definitions.isEndpointLevel key = true := by
  obtain h | h := OrderedMap.mem_keys_insertMany h
  · rw [OrderedMap.keys_filterKeys, List.mem_filter] at h
    exact .inl h.2
  · change key ∈ (OrderedMap.filterKeys _ _).keys at h
    rw [OrderedMap.keys_filterKeys, List.mem_filter] at h
    exact .inr h.2

theorem agree_options {hidden : String → Prop} (h : m.Agree hidden m') :
    (options k a m).Agree hidden (options k a m') :=
  (h.filterKeys _).overlay (h.filterKeys _)

/-- Masking leaves nothing of the values of hidden keys. -/
theorem maskSecrets_options_eq (h : m.Agree (Hidden true k a) m') (owner : String) :
    (options k a m).maskSecrets owner [k.definitions, a.definitions] =
      (options k a m').maskSecrets owner [k.definitions, a.definitions] := by
  refine (agree_options h).mapEntries_eq ?_
  intro key hkey hh v v'
  have hs : [k.definitions, a.definitions].any (·.isSecret key) = true := by
    obtain ⟨-, hs⟩ | ⟨hk, ha⟩ := hh
    · simpa using hs
    · obtain h | h := isEndpointLevel_of_mem_options hkey
      · rw [hk] at h
        cases h
      · rw [ha] at h
        cases h
  simp only [hs, if_true]

/-- Without masking the options have no hidden keys. -/
theorem options_eq (h : m.Agree (Hidden false k a) m') : options k a m = options k a m' := by
  refine (agree_options h).eq_of_not_hidden ?_
  rintro key hkey (⟨⟨⟩, -⟩ | ⟨hk, ha⟩)
  obtain h | h := isEndpointLevel_of_mem_options hkey
  · rw [hk] at h
    cases h
  · rw [ha] at h
    cases h

end Endpoint

end RouteCompiler
