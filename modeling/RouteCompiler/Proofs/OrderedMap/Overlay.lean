import RouteCompiler.Proofs.OrderedMap
import Mathlib.Data.List.Basic
import Mathlib.Data.List.Induction

/-!
Maps written over one another. Writing over is associative, the empty map is its identity, and a
map over itself is itself, with the order of the keys; keys can be selected and values replaced
before or after it. Any number of maps have one result: the keys in the order in which they are
first seen, each with the value of the last map that has it.
-/

namespace RouteCompiler.OrderedMap

variable {κ α β : Type}

theorem mapEntries_filterKeys (f : κ → α → β) (p : κ → Bool) (m : OrderedMap κ α) :
    (m.filterKeys p).mapEntries f = (m.mapEntries f).filterKeys p := by
  apply ext
  simp only [filterKeys, mapEntries, List.filter_map]
  rfl

variable [DecidableEq κ]

theorem ext_get? {m n : OrderedMap κ α} (hk : m.keys = n.keys)
    (h : ∀ k, m.get? k = n.get? k) : m = n :=
  ext (eq_of_lookup m.nodup hk fun k _ => h k)

theorem get?_eq_none_iff {m : OrderedMap κ α} {k : κ} : m.get? k = none ↔ k ∉ m.keys :=
  lookup_eq_none_iff

/-! ## Two and three maps -/

theorem mem_keys_overlay {a b : OrderedMap κ α} {k : κ} :
    k ∈ (a.overlay b).keys ↔ k ∈ a.keys ∨ k ∈ b.keys := by
  rw [keys_overlay]
  by_cases h : k ∈ a.keys <;> simp [h]

theorem overlay_assoc (a b c : OrderedMap κ α) :
    (a.overlay b).overlay c = a.overlay (b.overlay c) := by
  refine ext_get? ?_ fun k => ?_
  · -- behind the keys of `a` and `b` come those of `c` that neither of them has
    have hlast : c.keys.filter (fun k => decide (k ∉ (a.overlay b).keys)) =
        (c.keys.filter fun k => decide (k ∉ b.keys)).filter fun k => decide (k ∉ a.keys) := by
      rw [List.filter_filter]
      refine List.filter_congr fun k _ => ?_
      simp [mem_keys_overlay]
    rw [keys_overlay, hlast, keys_overlay, keys_overlay, keys_overlay, List.filter_append,
      List.append_assoc]
  · simp only [get?_overlay, Option.or_assoc]

theorem empty_overlay (a : OrderedMap κ α) : empty.overlay a = a := by
  refine ext_get? ?_ fun k => ?_
  · rw [keys_overlay]
    simp [keys, empty]
  · rw [get?_overlay, get?_empty, Option.or_none]

theorem overlay_empty (a : OrderedMap κ α) : a.overlay empty = a := rfl

theorem overlay_self (a : OrderedMap κ α) : a.overlay a = a := by
  refine ext_get? ?_ fun k => ?_
  · rw [keys_overlay]
    simp
  · rw [get?_overlay, Option.or_self]

instance : Std.Associative (overlay : OrderedMap κ α → OrderedMap κ α → OrderedMap κ α) :=
  ⟨overlay_assoc⟩

/-- Keys can be selected before one map is written over another. -/
theorem filterKeys_overlay (p : κ → Bool) (a b : OrderedMap κ α) :
    (a.overlay b).filterKeys p = (a.filterKeys p).overlay (b.filterKeys p) := by
  refine ext_get? ?_ fun k => ?_
  · simp only [keys_filterKeys, keys_overlay, List.filter_append, List.filter_filter]
    congr 1
    refine List.filter_congr fun k _ => ?_
    cases hp : p k <;> simp [hp]
  · simp only [get?_filterKeys, get?_overlay]
    split <;> rfl

/-- Values can be replaced before one map is written over another. -/
theorem mapEntries_overlay (f : κ → α → β) (a b : OrderedMap κ α) :
    (a.overlay b).mapEntries f = (a.mapEntries f).overlay (b.mapEntries f) := by
  refine ext_get? ?_ fun k => ?_
  · simp only [keys_mapEntries, keys_overlay]
  · simp only [get?_mapEntries, get?_overlay, Option.map_or]

/-! ## Any number of maps -/

theorem overlayAll_singleton (a : OrderedMap κ α) : overlayAll [a] = a := empty_overlay a

theorem overlayAll_pair (a b : OrderedMap κ α) : overlayAll [a, b] = a.overlay b := by
  change (empty.overlay a).overlay b = a.overlay b
  rw [empty_overlay]

theorem overlayAll_append (ms ns : List (OrderedMap κ α)) :
    overlayAll (ms ++ ns) = (overlayAll ms).overlay (overlayAll ns) :=
  calc overlayAll (ms ++ ns) = ns.foldl overlay ((overlayAll ms).overlay empty) :=
        List.foldl_append
    _ = (overlayAll ms).overlay (overlayAll ns) := List.foldl_assoc

/-- Maps can be written over one another group by group. -/
theorem overlayAll_flatten (mss : List (List (OrderedMap κ α))) :
    overlayAll mss.flatten = overlayAll (mss.map overlayAll) := by
  induction mss with
  | nil => rfl
  | cons ms mss ih =>
    rw [List.flatten_cons, overlayAll_append, ih, List.map_cons, ← List.singleton_append,
      overlayAll_append, overlayAll_singleton]

/-- What can be done before one map is written over another can be done before any number are. -/
theorem overlayAll_map {f : OrderedMap κ α → OrderedMap κ β} (hempty : f empty = empty)
    (hoverlay : ∀ a b, f (a.overlay b) = (f a).overlay (f b)) (ms : List (OrderedMap κ α)) :
    f (overlayAll ms) = overlayAll (ms.map f) := by
  induction ms using List.reverseRecOn with
  | nil => exact hempty
  | append_singleton ms m ih =>
    rw [overlayAll_append, hoverlay, ih, List.map_append, overlayAll_append, overlayAll_singleton,
      List.map_singleton, overlayAll_singleton]

/-! ## What the result is -/

/-- Of the maps that have the key, the last one gives it this value. -/
def LastGives (ms : List (OrderedMap κ α)) (k : κ) (v : α) : Prop :=
  ∃ before m after, ms = before ++ m :: after ∧ m.get? k = some v ∧ ∀ n ∈ after, k ∉ n.keys

/-- The map has the keys of all these maps, in the order in which they are first seen, each with the
value of the last map that has it. -/
structure Merges (ms : List (OrderedMap κ α)) (m : OrderedMap κ α) : Prop where
  mem_keys_iff : ∀ k, k ∈ m.keys ↔ ∃ n ∈ ms, k ∈ n.keys
  firstSeen : m.keys.Pairwise fun j k => (ms.flatMap keys).idxOf j < (ms.flatMap keys).idxOf k
  get?_iff : ∀ k v, m.get? k = some v ↔ LastGives ms k v

variable {ms : List (OrderedMap κ α)} {m n : OrderedMap κ α}

theorem Merges.mem_flatMap_iff (h : Merges ms m) (k : κ) : k ∈ ms.flatMap keys ↔ k ∈ m.keys := by
  rw [h.mem_keys_iff, List.mem_flatMap]

/-- Nothing else fits the maps. -/
theorem Merges.unique (h : Merges ms m) (h' : Merges ms n) : m = n := by
  refine ext_get? ?_ fun k => ?_
  · have hperm : m.keys.Perm n.keys := by
      rw [List.perm_ext_iff_of_nodup m.nodup_keys n.nodup_keys]
      intro k
      rw [h.mem_keys_iff, h'.mem_keys_iff]
    refine hperm.eq_of_pairwise ?_ h.firstSeen h'.firstSeen
    intro j k _ _ hjk hkj
    exact absurd hkj (Nat.lt_asymm hjk)
  · rw [Option.ext_iff]
    intro v
    rw [h.get?_iff, h'.get?_iff]

theorem pairwise_idxOf_of_nodup {ks : List κ} (h : ks.Nodup) :
    ks.Pairwise fun j k => ks.idxOf j < ks.idxOf k := by
  rw [List.pairwise_iff_getElem]
  intro i j hi hj hij
  rwa [h.idxOf_getElem, h.idxOf_getElem]

theorem lastGives_append_singleton {k : κ} {v : α} : LastGives (ms ++ [n]) k v ↔
    n.get? k = some v ∨ (k ∉ n.keys ∧ LastGives ms k v) := by
  constructor
  · rintro ⟨before, m, after, hms, hm, hafter⟩
    -- the map at the end is the one that gives the value, or one of those that have not the key
    obtain rfl | ⟨after, o, rfl⟩ := List.eq_nil_or_concat after
    · obtain ⟨-, hn⟩ := List.append_inj' hms rfl
      obtain rfl := (List.cons.inj hn).1
      exact .inl hm
    · have hms : ms ++ [n] = (before ++ m :: after) ++ [o] := by simpa using hms
      obtain ⟨rfl, hn⟩ := List.append_inj' hms rfl
      obtain rfl := (List.cons.inj hn).1
      refine .inr ⟨hafter n (by simp), before, m, after, rfl, hm, fun o ho => ?_⟩
      exact hafter o (by simp [ho])
  · rintro (hn | ⟨hk, before, m, after, rfl, hm, hafter⟩)
    · exact ⟨ms, n, [], rfl, hn, by simp⟩
    · refine ⟨before, m, after ++ [n], by simp, hm, fun o ho => ?_⟩
      obtain ho | ho := List.mem_append.1 ho
      · exact hafter o ho
      · exact List.mem_singleton.1 ho ▸ hk

/-- One more map on top: its new keys go to the end, and its values win. -/
theorem Merges.overlay (h : Merges ms m) (n : OrderedMap κ α) :
    Merges (ms ++ [n]) (m.overlay n) where
  mem_keys_iff k := by
    rw [mem_keys_overlay, h.mem_keys_iff]
    simp [or_and_right, exists_or]
  firstSeen := by
    -- old keys stay where they were first seen, and new ones are first seen behind all of them
    have hold : ∀ k ∈ m.keys, ((ms ++ [n]).flatMap keys).idxOf k = (ms.flatMap keys).idxOf k ∧
        (ms.flatMap keys).idxOf k < (ms.flatMap keys).length := by
      intro k hk
      have hmem := (h.mem_flatMap_iff k).2 hk
      rw [List.flatMap_append, List.idxOf_append, if_pos hmem]
      exact ⟨rfl, List.idxOf_lt_length_of_mem hmem⟩
    have hnew : ∀ k, k ∉ m.keys → ((ms ++ [n]).flatMap keys).idxOf k =
        n.keys.idxOf k + (ms.flatMap keys).length := by
      intro k hk
      rw [List.flatMap_append, List.idxOf_append, if_neg fun hm => hk ((h.mem_flatMap_iff k).1 hm),
        List.flatMap_singleton]
    have hmem : ∀ k ∈ n.keys.filter (fun k => decide (k ∉ m.keys)), k ∉ m.keys := by
      intro k hk
      exact of_decide_eq_true (List.mem_filter.1 hk).2
    rw [keys_overlay]
    refine List.pairwise_append.2 ⟨?_, ?_, ?_⟩
    · refine h.firstSeen.imp_of_mem fun {j k} hj hk hjk => ?_
      rw [(hold j hj).1, (hold k hk).1]
      exact hjk
    · refine ((pairwise_idxOf_of_nodup n.nodup_keys).filter _).imp_of_mem fun {j k} hj hk hjk => ?_
      rw [hnew j (hmem j hj), hnew k (hmem k hk)]
      omega
    · intro j hj k hk
      have hlt := (hold j hj).2
      rw [(hold j hj).1, hnew k (hmem k hk)]
      omega
  get?_iff k v := by
    rw [get?_overlay, Option.or_eq_some_iff, lastGives_append_singleton, get?_eq_none_iff,
      h.get?_iff]

theorem merges_overlayAll (ms : List (OrderedMap κ α)) : Merges ms (overlayAll ms) := by
  induction ms using List.reverseRecOn with
  | nil =>
    exact ⟨by simp [overlayAll, keys, empty], List.Pairwise.nil, by simp [overlayAll, LastGives]⟩
  | append_singleton ms m ih =>
    rw [overlayAll_append, overlayAll_singleton]
    exact ih.overlay m

theorem merges_iff : Merges ms m ↔ m = overlayAll ms := by
  constructor
  · intro h
    exact h.unique (merges_overlayAll ms)
  · rintro rfl
    exact merges_overlayAll ms

end RouteCompiler.OrderedMap
