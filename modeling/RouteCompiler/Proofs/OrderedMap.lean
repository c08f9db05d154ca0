import RouteCompiler.OrderedMap

/-!
Maps built by writing entries one after the other. The keys stand in the order in which they were
first written, each once; a key has the value that was written to it last.
-/

namespace RouteCompiler.OrderedMap

variable {κ α : Type} [DecidableEq κ] (m : OrderedMap κ α)

theorem insertMany_append (es fs : List (κ × α)) :
    m.insertMany (es ++ fs) = (m.insertMany es).insertMany fs := by
  simp only [insertMany, List.foldl_append]

/-- Writing other keys leaves a value as it is. -/
theorem get?_insertMany_of_notMem {k : κ} {es : List (κ × α)} (h : k ∉ es.map Prod.fst) :
    (m.insertMany es).get? k = m.get? k := by
  induction es generalizing m with
  | nil => rfl
  | cons e es ih =>
    rw [List.map_cons, List.mem_cons, not_or] at h
    have hm : (m.insertMany (e :: es)).get? k = (m.insert e.1 e.2).get? k :=
      ih (m.insert e.1 e.2) h.2
    rw [hm, get?_insert, if_neg (Ne.symm h.1)]

/-- The last of the values written to a key stays. -/
theorem get?_insertMany_last {k : κ} (v : α) (before : List (κ × α)) {after : List (κ × α)}
    (h : k ∉ after.map Prod.fst) :
    (m.insertMany (before ++ (k, v) :: after)).get? k = some v := by
  rw [insertMany_append]
  have hm : ((m.insertMany before).insertMany ((k, v) :: after)).get? k =
      ((m.insertMany before).insert k v).get? k := get?_insertMany_of_notMem _ h
  rw [hm, get?_insert, if_pos rfl]

/-- Among entries with distinct keys each one stays. -/
theorem get?_insertMany_of_mem {k : κ} {v : α} {es : List (κ × α)}
    (hn : (es.map Prod.fst).Nodup) (h : (k, v) ∈ es) : (m.insertMany es).get? k = some v := by
  obtain ⟨before, after, rfl⟩ := List.append_of_mem h
  refine get?_insertMany_last m v before ?_
  rw [List.map_append, List.map_cons] at hn
  exact (List.nodup_cons.1 (List.nodup_append.1 hn).2.1).1

/-- New keys come behind the old ones, in the order in which they are first written. -/
theorem keys_insertMany (es : List (κ × α)) : (m.insertMany es).keys =
    m.keys ++ ((es.map Prod.fst).filter fun k => decide (k ∉ m.keys)).eraseDups := by
  induction es generalizing m with
  | nil => simp [insertMany]
  | cons e es ih =>
    have hm : (m.insertMany (e :: es)).keys = _ := ih (m.insert e.1 e.2)
    rw [hm, keys_insert, List.map_cons]
    by_cases h : e.1 ∈ m.keys
    · rw [if_pos h, List.filter_cons_of_neg (by simpa using h)]
    · rw [if_neg h, List.filter_cons_of_pos (by simpa using h), List.eraseDups_cons,
        List.filter_filter, List.append_assoc, List.singleton_append]
      congr 3
      refine List.filter_congr fun k _ => ?_
      by_cases hk : k = e.1 <;> simp [hk]

theorem keys_ofList (es : List (κ × α)) : (ofList es).keys = (es.map Prod.fst).eraseDups := by
  rw [ofList, keys_insertMany, List.filter_eq_self.2 (by simp [keys, empty])]
  rfl

/-- A new key goes to the end. -/
theorem put_of_notMem {k : κ} (v : α) {es : List (κ × α)} (h : k ∉ es.map Prod.fst) :
    put k v es = es ++ [(k, v)] := by
  induction es with
  | nil => rfl
  | cons e es ih =>
    rw [List.map_cons, List.mem_cons, not_or] at h
    rw [put, if_neg (Ne.symm h.1), ih h.2, List.cons_append]

/-! ## The last value of a key -/

/-- The value that a list of entries gives to a key last. -/
def last? (k : κ) (es : List (κ × α)) : Option α :=
  (es.reverse.find? fun e => decide (e.1 = k)).map Prod.snd

theorem last?_cons (k : κ) (e : κ × α) (es : List (κ × α)) :
    last? k (e :: es) = (last? k es).or (if e.1 = k then some e.2 else none) := by
  simp only [last?, List.reverse_cons, List.find?_append]
  cases es.reverse.find? fun e => decide (e.1 = k) with
  | some f => rfl
  | none => by_cases h : e.1 = k <;> simp [h]

theorem get?_insertMany (es : List (κ × α)) (k : κ) :
    (m.insertMany es).get? k = (last? k es).or (m.get? k) := by
  induction es generalizing m with
  | nil => rfl
  | cons e es ih =>
    have hm : (m.insertMany (e :: es)).get? k = _ := ih (m.insert e.1 e.2)
    rw [hm, get?_insert, last?_cons, Option.or_assoc]
    split <;> rfl

theorem get?_ofList (es : List (κ × α)) (k : κ) : (ofList es).get? k = last? k es := by
  rw [ofList, get?_insertMany]
  exact Option.or_none

theorem lookup_eq_none_iff {k : κ} {es : List (κ × α)} :
    lookup k es = none ↔ k ∉ es.map Prod.fst := by
  rw [← lookup_isSome_iff, Option.not_isSome_iff_eq_none]

/-- Among entries with distinct keys the last one of a key is the one that is there. -/
theorem last?_of_nodup {es : List (κ × α)} (hn : (es.map Prod.fst).Nodup) (k : κ) :
    last? k es = lookup k es := by
  induction es with
  | nil => rfl
  | cons e es ih =>
    obtain ⟨hj, hn⟩ := List.nodup_cons.1 hn
    rw [last?_cons, ih hn, lookup]
    by_cases h : e.1 = k
    · rw [lookup_eq_none_iff.2 (h ▸ hj)]
      rfl
    · rw [if_neg h, if_neg h, Option.or_none]

theorem foldl_overlay (ms : List (OrderedMap κ α)) :
    ms.foldl overlay m = m.insertMany (ms.flatMap entries) := by
  induction ms generalizing m with
  | nil => rfl
  | cons a ms ih => rw [List.foldl_cons, ih, List.flatMap_cons, insertMany_append, overlay]

theorem overlayAll_eq_ofList (ms : List (OrderedMap κ α)) :
    overlayAll ms = ofList (ms.flatMap entries) :=
  foldl_overlay empty ms

/-! ## One map over another -/

theorem get?_overlay (a b : OrderedMap κ α) (k : κ) :
    (a.overlay b).get? k = (b.get? k).or (a.get? k) := by
  rw [overlay, get?_insertMany, last?_of_nodup b.nodup]
  rfl

theorem eraseDups_of_nodup {l : List κ} (h : l.Nodup) : l.eraseDups = l := by
  induction l with
  | nil => rfl
  | cons a l ih =>
    obtain ⟨ha, hl⟩ := List.nodup_cons.1 h
    have hf : l.filter (fun b => !b == a) = l := by
      refine List.filter_eq_self.2 fun b hb => ?_
      have hne : b ≠ a := fun hba => ha (hba ▸ hb)
      simpa using hne
    rw [List.eraseDups_cons, hf, ih hl]

theorem keys_overlay (a b : OrderedMap κ α) :
    (a.overlay b).keys = a.keys ++ b.keys.filter fun k => decide (k ∉ a.keys) := by
  rw [overlay, keys_insertMany, eraseDups_of_nodup (b.nodup.filter _)]
  rfl

/-- Entries with distinct keys are determined by their keys and what each key stands for. -/
theorem eq_of_lookup {es fs : List (κ × α)} (hn : (es.map Prod.fst).Nodup)
    (hk : es.map Prod.fst = fs.map Prod.fst)
    (h : ∀ k ∈ es.map Prod.fst, lookup k es = lookup k fs) : es = fs := by
  induction es generalizing fs with
  | nil => exact (List.map_eq_nil_iff.1 hk.symm).symm
  | cons e es ih =>
    cases fs with
    | nil => cases hk
    | cons f fs =>
      obtain ⟨hef, hk⟩ := List.cons.inj hk
      obtain ⟨he, hn⟩ := List.nodup_cons.1 hn
      have hv : e.2 = f.2 := by
        simpa [lookup, hef] using h e.1 List.mem_cons_self
      rw [Prod.ext hef hv, ih hn hk]
      intro k hmem
      have hne : e.1 ≠ k := fun hek => he (hek ▸ hmem)
      simpa [lookup, hne, hef ▸ hne] using h k (List.mem_cons_of_mem _ hmem)

theorem lookup_append (k : κ) (es fs : List (κ × α)) :
    lookup k (es ++ fs) = (lookup k es).or (lookup k fs) := by
  induction es with
  | nil => rfl
  | cons e es ih =>
    rw [List.cons_append, lookup, lookup, ih]
    split <;> rfl

theorem lookup_map {β : Type} (f : κ → α → β) (k : κ) (es : List (κ × α)) :
    lookup k (es.map fun e => (e.1, f e.1 e.2)) = (lookup k es).map (f k) := by
  induction es with
  | nil => rfl
  | cons e es ih =>
    rw [List.map_cons, lookup, lookup, ih]
    split
    next h => rw [← h]; rfl
    next => rfl

theorem lookup_filter (p : κ → Bool) (k : κ) (es : List (κ × α)) :
    lookup k (es.filter fun e => p e.1) = if p k then lookup k es else none := by
  induction es with
  | nil => simp [lookup]
  | cons e es ih =>
    by_cases hp : p e.1 = true
    · rw [List.filter_cons_of_pos (by exact hp), lookup, lookup, ih]
      by_cases hk : e.1 = k
      · rw [if_pos hk, if_pos hk, if_pos (hk ▸ hp)]
      · rw [if_neg hk, if_neg hk]
    · rw [List.filter_cons_of_neg (by exact hp), ih, lookup]
      by_cases hk : e.1 = k
      · rw [if_neg (hk ▸ hp), if_neg (hk ▸ hp)]
      · rw [if_neg hk]

/-- The entries of the lower map stay in their places, with the values of the upper one where it has
any; the other entries of the upper map follow. -/
theorem entries_overlay (a b : OrderedMap κ α) : (a.overlay b).entries =
    a.entries.map (fun e => (e.1, (b.get? e.1).getD e.2)) ++
      b.entries.filter fun e => decide (e.1 ∉ a.keys) := by
  have hk := keys_overlay a b
  refine eq_of_lookup (a.overlay b).nodup ?_ fun k _ => ?_
  · change (a.overlay b).keys = _
    rw [hk, List.map_append, List.map_map, keys, keys, List.filter_map]
    rfl
  · change (a.overlay b).get? k = _
    rw [get?_overlay, lookup_append, lookup_map fun j v => (b.get? j).getD v,
      lookup_filter fun j => decide (j ∉ a.keys)]
    rw [get?, get?]
    cases ha : lookup k a.entries with
    | none =>
      have hm : k ∉ a.keys := lookup_eq_none_iff.1 ha
      simp [hm]
    | some v =>
      cases lookup k b.entries <;> rfl

theorem get?_filterKeys (p : κ → Bool) (k : κ) :
    (m.filterKeys p).get? k = if p k then m.get? k else none :=
  lookup_filter p k m.entries

theorem get?_mapEntries {β : Type} (f : κ → α → β) (k : κ) :
    (m.mapEntries f).get? k = (m.get? k).map (f k) :=
  lookup_map f k m.entries

theorem mem_entries_of_get? {m : OrderedMap κ α} {k : κ} {v : α} (h : m.get? k = some v) :
    (k, v) ∈ m.entries := by
  have hl : ∀ es : List (κ × α), lookup k es = some v → (k, v) ∈ es := by
    intro es
    induction es with
    | nil => exact nofun
    | cons e es ih =>
      intro h
      rw [lookup] at h
      split at h
      next hk =>
        obtain rfl := Option.some.inj h
        exact hk ▸ List.mem_cons_self
      next => exact List.mem_cons_of_mem e (ih h)
  exact hl m.entries h

/-- Writing the value that a key has changes nothing. -/
theorem insert_of_get? {m : OrderedMap κ α} {k : κ} {v : α} (h : m.get? k = some v) :
    m.insert k v = m := by
  have hp : ∀ es : List (κ × α), lookup k es = some v → put k v es = es := by
    intro es
    induction es with
    | nil => exact nofun
    | cons e es ih =>
      intro h
      rw [lookup] at h
      rw [put]
      split at h
      next hk =>
        obtain rfl := Option.some.inj h
        rw [if_pos hk]
      next hk => rw [if_neg hk, ih h]
  exact ext (hp m.entries h)

theorem get?_of_mem {e : κ × α} (h : e ∈ m.entries) : m.get? e.1 = some e.2 := by
  have hl : ∀ es : List (κ × α), (es.map Prod.fst).Nodup → e ∈ es →
      lookup e.1 es = some e.2 := by
    intro es hn hmem
    induction es with
    | nil => cases hmem
    | cons f es ih =>
      obtain ⟨hf, hn⟩ := List.nodup_cons.1 hn
      obtain rfl | hmem := List.mem_cons.1 hmem
      · rw [lookup, if_pos rfl]
      · have hne : f.1 ≠ e.1 := fun hfe => hf (hfe ▸ List.mem_map_of_mem hmem)
        rw [lookup, if_neg hne, ih hn hmem]
  exact hl m.entries m.nodup h

/-- Entries selected by their values are those of the keys whose values are selected. -/
theorem map_fst_filter (p : α → Bool) :
    (m.entries.filter fun e => p e.2).map Prod.fst =
      m.keys.filter fun k => (m.get? k).any p := by
  rw [keys, List.filter_map]
  refine congrArg (List.map Prod.fst) (List.filter_congr fun e he => ?_)
  change p e.2 = (m.get? e.1).any p
  rw [m.get?_of_mem he]
  rfl

/-- Two selections from one map: what is selected twice stands where the first has it. -/
theorem entries_overlay_filterKeys (p q : κ → Bool) :
    ((m.filterKeys p).overlay (m.filterKeys q)).entries =
      (m.entries.filter fun e => p e.1) ++ m.entries.filter fun e => q e.1 && !p e.1 := by
  rw [entries_overlay]
  congr 1
  · -- the second selection has the same values
    refine (List.map_congr_left fun e he => ?_).trans (List.map_id _)
    have hget := m.get?_of_mem (List.mem_filter.1 he).1
    rw [get?_filterKeys, hget]
    split <;> rfl
  · change List.filter _ (m.entries.filter fun e => q e.1) = _
    rw [List.filter_filter]
    refine List.filter_congr fun e he => ?_
    have hmem : e.1 ∈ m.keys := List.mem_map_of_mem he
    rw [keys_filterKeys, Bool.and_comm]
    simp [hmem]

theorem erase_of_get?_eq_none {k : κ} (h : m.get? k = none) : m.erase k = m := by
  have hk : k ∉ m.entries.map Prod.fst := lookup_eq_none_iff.1 h
  apply ext
  refine List.filter_eq_self.2 fun e he => decide_eq_true ?_
  intro hek
  exact hk (hek ▸ List.mem_map_of_mem he)

end RouteCompiler.OrderedMap
