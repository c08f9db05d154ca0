/-!
Maps that remember the order in which their keys were first inserted. Writing a key that is
already present keeps its position and replaces its value; the keys of a map are distinct, and
that fact travels with the map.
-/

namespace RouteCompiler

/-- A finite map listed in the order of first insertion. -/
structure OrderedMap (κ α : Type) where
  entries : List (κ × α)
  nodup : (entries.map Prod.fst).Nodup

namespace OrderedMap

variable {κ α β : Type}

@[ext] theorem ext {a b : OrderedMap κ α} (h : a.entries = b.entries) : a = b := by
  cases a; cases b; cases h; rfl

instance [DecidableEq κ] [DecidableEq α] : DecidableEq (OrderedMap κ α) := fun a b =>
  if h : a.entries = b.entries then isTrue (ext h) else isFalse fun e => h (e ▸ rfl)

instance [Repr κ] [Repr α] : Repr (OrderedMap κ α) := ⟨fun m n => reprPrec m.entries n⟩

def empty : OrderedMap κ α := ⟨[], List.nodup_nil⟩

instance : Inhabited (OrderedMap κ α) := ⟨empty⟩
instance : EmptyCollection (OrderedMap κ α) := ⟨empty⟩

def keys (m : OrderedMap κ α) : List κ := m.entries.map Prod.fst
def values (m : OrderedMap κ α) : List α := m.entries.map Prod.snd
def toList (m : OrderedMap κ α) : List (κ × α) := m.entries
def size (m : OrderedMap κ α) : Nat := m.entries.length
def isEmpty (m : OrderedMap κ α) : Bool := m.entries.isEmpty

theorem nodup_keys (m : OrderedMap κ α) : m.keys.Nodup := m.nodup

/-! ## Filtering and mapping -/

theorem nodup_filter (p : κ × α → Bool) {es : List (κ × α)}
    (h : (es.map Prod.fst).Nodup) : ((es.filter p).map Prod.fst).Nodup :=
  h.sublist (List.filter_sublist.map Prod.fst)

/-- The entries whose key satisfies `p`, in their order. -/
def filterKeys (p : κ → Bool) (m : OrderedMap κ α) : OrderedMap κ α :=
  ⟨m.entries.filter fun e => p e.1, nodup_filter _ m.nodup⟩

/-- Replace every value by a function of its key and itself. -/
def mapEntries (f : κ → α → β) (m : OrderedMap κ α) : OrderedMap κ β :=
  ⟨m.entries.map fun e => (e.1, f e.1 e.2), by
    have h : (m.entries.map fun e => (e.1, f e.1 e.2)).map Prod.fst = m.entries.map Prod.fst := by
      simp
    exact h ▸ m.nodup⟩

theorem keys_filterKeys (p : κ → Bool) (m : OrderedMap κ α) :
    (m.filterKeys p).keys = m.keys.filter p := by
  simp only [keys, filterKeys, List.filter_map]
  rfl

theorem filterKeys_filterKeys (p q : κ → Bool) (m : OrderedMap κ α) :
    (m.filterKeys p).filterKeys q = m.filterKeys fun k => p k && q k := by
  apply ext
  simp only [filterKeys, List.filter_filter, Bool.and_comm]

theorem keys_mapEntries (f : κ → α → β) (m : OrderedMap κ α) :
    (m.mapEntries f).keys = m.keys := by
  simp [keys, mapEntries]

/-! ## Lookup and insertion -/

variable [DecidableEq κ]

def lookup (k : κ) : List (κ × α) → Option α
  | [] => none
  | (k', v) :: r => if k' = k then some v else lookup k r

def get? (m : OrderedMap κ α) (k : κ) : Option α := lookup k m.entries
def contains (m : OrderedMap κ α) (k : κ) : Bool := (m.get? k).isSome

/-- Write one entry of a list of entries, at its old position or at the end. -/
def put (k : κ) (v : α) : List (κ × α) → List (κ × α)
  | [] => [(k, v)]
  | (k', v') :: r => if k' = k then (k', v) :: r else (k', v') :: put k v r

theorem keys_put (k : κ) (v : α) (es : List (κ × α)) :
    (put k v es).map Prod.fst =
      if k ∈ es.map Prod.fst then es.map Prod.fst else es.map Prod.fst ++ [k] := by
  induction es with
  | nil => rfl
  | cons e r ih =>
    obtain ⟨k', v'⟩ := e
    by_cases h : k' = k
    · simp [put, h]
    · have h' : ¬ k = k' := fun e => h e.symm
      simp only [put, if_neg h, List.map_cons, ih, List.mem_cons, h', false_or]
      split <;> simp

theorem nodup_put (k : κ) (v : α) {es : List (κ × α)} (h : (es.map Prod.fst).Nodup) :
    ((put k v es).map Prod.fst).Nodup := by
  rw [keys_put]
  split
  · exact h
  · rename_i hk
    exact List.nodup_append.2 ⟨h, by simp, fun a ha b hb e => hk (by simp_all)⟩

def insert (m : OrderedMap κ α) (k : κ) (v : α) : OrderedMap κ α :=
  ⟨put k v m.entries, nodup_put k v m.nodup⟩

/-- Write all entries of a list, from the first to the last. -/
def insertMany (m : OrderedMap κ α) (es : List (κ × α)) : OrderedMap κ α :=
  es.foldl (fun m e => m.insert e.1 e.2) m

def ofList (es : List (κ × α)) : OrderedMap κ α := empty.insertMany es

/-- The first map with the entries of the second written over it. -/
def overlay (a b : OrderedMap κ α) : OrderedMap κ α := a.insertMany b.entries

/-- All maps written over one another, the last on top. -/
def overlayAll (ms : List (OrderedMap κ α)) : OrderedMap κ α := ms.foldl overlay empty

def erase (m : OrderedMap κ α) (k : κ) : OrderedMap κ α := m.filterKeys fun k' => decide (k' ≠ k)

@[simp] theorem get?_empty (k : κ) : (empty : OrderedMap κ α).get? k = none := rfl

theorem lookup_put (k k' : κ) (v : α) (es : List (κ × α)) :
    lookup k' (put k v es) = if k = k' then some v else lookup k' es := by
  induction es with
  | nil => simp [put, lookup]
  | cons e r ih =>
    obtain ⟨j, w⟩ := e
    by_cases hj : j = k
    · subst hj
      by_cases hk : j = k' <;> simp [put, lookup, hk]
    · by_cases hk : j = k'
      · subst hk
        have h' : ¬ k = j := fun e => hj e.symm
        simp [put, lookup, hj, h']
      · simp [put, lookup, hj, hk, ih]

theorem get?_insert (m : OrderedMap κ α) (k k' : κ) (v : α) :
    (m.insert k v).get? k' = if k = k' then some v else m.get? k' :=
  lookup_put k k' v m.entries

theorem keys_insert (m : OrderedMap κ α) (k : κ) (v : α) :
    (m.insert k v).keys = if k ∈ m.keys then m.keys else m.keys ++ [k] :=
  keys_put k v m.entries

theorem lookup_isSome_iff (k : κ) (es : List (κ × α)) :
    (lookup k es).isSome ↔ k ∈ es.map Prod.fst := by
  induction es with
  | nil => simp [lookup]
  | cons e r ih =>
    obtain ⟨j, w⟩ := e
    by_cases h : j = k
    · simp [lookup, h]
    · have h' : ¬ k = j := fun e => h e.symm
      simp only [lookup, if_neg h, ih, List.map_cons, List.mem_cons, h', false_or]

theorem contains_iff_mem_keys (m : OrderedMap κ α) (k : κ) : m.contains k ↔ k ∈ m.keys :=
  lookup_isSome_iff k m.entries

end OrderedMap
end RouteCompiler
