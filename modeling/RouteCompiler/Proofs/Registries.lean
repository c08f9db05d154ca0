import RouteCompiler.Proofs.OrderedMap
import RouteCompiler.Registries

/-!
What registries hold after any run of operations. The operations alone decide it: a kind is served
by what was registered for it last, counted from where the registry was made, and behind a copy by
what its source held there. All observers of a registry agree with that, and an operation on one
registry leaves the others as they are.
-/

namespace RouteCompiler

namespace Registry

variable {φ : Type}

/-! ## Making registries -/

theorem registerAll_of_disjoint (r : Registry φ) {es : List (String × φ)}
    (h : ((r.entries ++ es).map Prod.fst).Nodup) :
    (r.registerAll es).1.entries = r.entries ++ es ∧ (r.registerAll es).2 = [] := by
  induction es generalizing r with
  | nil => exact ⟨(List.append_nil _).symm, rfl⟩
  | cons e es ih =>
    have hmem : e.1 ∉ r.entries.map Prod.fst := by
      rw [List.map_append, List.map_cons] at h
      exact fun hm => (List.nodup_append.1 h).2.2 _ hm _ List.mem_cons_self rfl
    have hcontains : OrderedMap.contains r e.1 = false :=
      Bool.eq_false_iff.2 fun hc => hmem ((OrderedMap.contains_iff_mem_keys r e.1).1 hc)
    have hput : (OrderedMap.insert r e.1 e.2).entries = r.entries ++ [e] :=
      OrderedMap.put_of_notMem e.2 hmem
    have hrest := ih (OrderedMap.insert r e.1 e.2) (by rwa [hput, List.append_assoc])
    rw [hput, List.append_assoc, List.singleton_append] at hrest
    simp only [registerAll, register, hcontains]
    exact ⟨hrest.1, hrest.2⟩

/-- A registry holds what it is made from, and nothing is replaced on the way. -/
theorem ofFactories_eq (factories : OrderedMap String φ) :
    ofFactories factories = (factories, []) := by
  have h := registerAll_of_disjoint {} factories.nodup
  exact Prod.ext (OrderedMap.ext h.1) h.2

/-! ## Observing a registry -/

/-- Every observer of the registry tells of these factories. -/
structure Shows (r : Registry φ) (held : String → Option φ) : Prop where
  lookup : ∀ kind, OrderedMap.get? r kind = held kind
  contains : ∀ kind, OrderedMap.contains r kind = (held kind).isSome
  find : ∀ kind, r.find kind = (held kind).elim (.error (.unknownStepKind kind)) .ok
  mem_kinds : ∀ kind, kind ∈ r.kinds ↔ (held kind).isSome
  increasing : r.kinds.Pairwise (· < ·)
  size : OrderedMap.size r = r.kinds.length

theorem perm_kinds (r : Registry φ) : r.kinds.Perm r.keys := List.mergeSort_perm _ _

theorem pairwise_kinds (r : Registry φ) : r.kinds.Pairwise (· < ·) := by
  have htrans : ∀ a b c : String, decide (a ≤ b) = true → decide (b ≤ c) = true →
      decide (a ≤ c) = true := fun _ _ _ h h' =>
    decide_eq_true (String.le_trans (of_decide_eq_true h) (of_decide_eq_true h'))
  have htotal : ∀ a b : String, (decide (a ≤ b) || decide (b ≤ a)) = true := fun a b => by
    simpa using String.le_total a b
  have hle : r.kinds.Pairwise fun a b => decide (a ≤ b) = true :=
    List.pairwise_mergeSort htrans htotal r.keys
  have hne : r.kinds.Nodup := r.perm_kinds.nodup_iff.2 r.nodup_keys
  exact hle.imp₂ (fun _ _ h h' => Std.lt_of_le_of_ne (of_decide_eq_true h) h') hne

theorem shows_get? (r : Registry φ) : r.Shows (OrderedMap.get? r) where
  lookup _ := rfl
  contains _ := rfl
  find kind := by
    rw [find]
    cases OrderedMap.get? r kind <;> rfl
  mem_kinds kind := r.perm_kinds.mem_iff.trans (OrderedMap.contains_iff_mem_keys r kind).symm
  increasing := r.pairwise_kinds
  size := by
    rw [r.perm_kinds.length_eq, OrderedMap.keys, List.length_map, OrderedMap.size]

end Registry

namespace Registries

variable {φ : Type}

/-! ## What the operations tell -/

/-- The registry an operation makes or writes to. -/
def Operation.target? : Operation φ → Option String
  | .create name _ | .copy _ name | .register name _ _ => some name
  | .decorate name _ _ => some (name.getD defaultName)
  | .ask _ _ => none

/-- What an operation registers: where, for which kind and what. -/
def Operation.registration? : Operation φ → Option (String × String × φ)
  | .register name kind factory => some (name, kind, factory)
  | .decorate name kind c => some (name.getD defaultName, kind, c)
  | _ => none

/-- A registry of the name was made. The latest operation stands first. -/
def Made : List (Operation φ) → String → Prop
  | [], name => name = defaultName
  | .create n _ :: past, name => n = name ∨ Made past name
  | .copy source n :: past, name => n = name ∧ Made past source ∨ Made past name
  | .register .. :: past, name | .decorate .. :: past, name | .ask .. :: past, name =>
    Made past name

instance decidableMade : (past : List (Operation φ)) → (name : String) → Decidable (Made past name)
  | [], name => inferInstanceAs (Decidable (name = defaultName))
  | .create n _ :: past, name =>
    have := decidableMade past name
    inferInstanceAs (Decidable (n = name ∨ Made past name))
  | .copy source n :: past, name =>
    have := decidableMade past name
    have := decidableMade past source
    inferInstanceAs (Decidable (n = name ∧ Made past source ∨ Made past name))
  | .register .. :: past, name | .decorate .. :: past, name | .ask .. :: past, name =>
    decidableMade past name

/-- The factory last registered for a kind since the registry was made, found by going back
through the operations, of which the latest stands first. The trace of a copy leads to its
source. -/
def lastRegistered (builtin : Registry φ) : List (Operation φ) → String → String → Option φ
  | [], name, kind => if name = defaultName then OrderedMap.get? builtin kind else none
  | op :: past, name, kind =>
    match op with
    | .create n factories =>
      if n = name then OrderedMap.get? factories kind else lastRegistered builtin past name kind
    | .copy source n =>
      if n = name ∧ Made past source then lastRegistered builtin past source kind
      else lastRegistered builtin past name kind
    | .register n k factory =>
      if n = name ∧ k = kind ∧ Made past name then some factory
      else lastRegistered builtin past name kind
    | .decorate n k c =>
      if n.getD defaultName = name ∧ k = kind ∧ Made past name then some c
      else lastRegistered builtin past name kind
    | .ask .. => lastRegistered builtin past name kind

/-- A copy keeps what its source held when it was made. -/
example : lastRegistered (.ofList [("log", 1)])
    [.register "default" "log" 2, .copy "default" "own"] "own" "log" = some 1 := by decide

/-- The registry that has to be there for an operation. -/
def Operation.needed? : Operation φ → Option String
  | .create .. => none
  | .copy source _ => some source
  | .register name _ _ | .ask name _ => some name
  | .decorate name _ _ => some (name.getD defaultName)

/-- How a query is answered where these factories are held. -/
inductive Answers (held : String → Option φ) : Registry.Query → Answer φ → Prop
  | kinds {ks : List String} (hmem : ∀ kind, kind ∈ ks ↔ (held kind).isSome)
    (hsorted : ks.Pairwise (· < ·)) : Answers held .kinds (.kinds ks)
  | size {ks : List String} (hmem : ∀ kind, kind ∈ ks ↔ (held kind).isSome)
    (hsorted : ks.Pairwise (· < ·)) : Answers held .size (.size ks.length)
  | contains (kind : String) : Answers held (.contains kind) (.contained (held kind).isSome)
  | lookup (kind : String) : Answers held (.lookup kind) (.factory (held kind))
  | found {kind : String} {factory : φ} (h : held kind = some factory) :
    Answers held (.find kind) (.found (.ok factory))
  | unknown {kind : String} (h : held kind = none) :
    Answers held (.find kind) (.found (.error (.unknownStepKind kind)))

/-- How an operation is answered behind others, of which the latest stands first. -/
inductive Answered (builtin : Registry φ) (past : List (Operation φ)) :
    Operation φ → Answer φ → Prop
  | created (name : String) (factories : OrderedMap String φ) :
    Answered builtin past (.create name factories) .done
  | copied {source : String} (h : Made past source) (name : String) :
    Answered builtin past (.copy source name) .done
  | registered {name : String} (h : Made past name) (kind : String) (factory : φ) :
    Answered builtin past (.register name kind factory) .done
  | decorated {name : Option String} (h : Made past (name.getD defaultName)) (kind : String)
    (c : φ) : Answered builtin past (.decorate name kind c) (.decorated c)
  | asked {name : String} {query : Registry.Query} {a : Answer φ} (h : Made past name)
    (ha : Answers (lastRegistered builtin past name) query a) :
    Answered builtin past (.ask name query) a
  | noRegistry {op : Operation φ} {name : String} (hop : op.needed? = some name)
    (h : ¬Made past name) : Answered builtin past op .noRegistry

/-! ## One operation -/

variable {s : Registries φ} {op : Operation φ} {name : String}

/-- The registry of a name after an operation. -/
def registryAfter (s : Registries φ) (name : String) : Operation φ → Option (Registry φ)
  | .create n factories => if n = name then some factories else s.byName.get? name
  | .copy source n =>
    if n = name then (s.byName.get? source).or (s.byName.get? name) else s.byName.get? name
  | .register n kind factory =>
    if n = name then (s.byName.get? name).map (OrderedMap.insert · kind factory)
    else s.byName.get? name
  | .decorate n kind c =>
    if n.getD defaultName = name then (s.byName.get? name).map (OrderedMap.insert · kind c)
    else s.byName.get? name
  | .ask .. => s.byName.get? name

theorem get?_put (r : Registry φ) (n : String) :
    (s.put n r).byName.get? name = if n = name then some r else s.byName.get? name :=
  OrderedMap.get?_insert s.byName n name r

/-- An operation on one registry leaves the others as they are. -/
theorem registryAfter_of_ne (h : op.target? ≠ some name) :
    s.registryAfter name op = s.byName.get? name := by
  cases op with
  | ask n query => rfl
  | _ => exact if_neg fun hn => h (congrArg some hn)

variable [DecidableEq φ]

/-- Decorating a class registers it. -/
theorem step_decorate (s : Registries φ) (n : Option String) (kind : String) (c : φ) :
    (s.step (.decorate n kind c)).2.2.byName =
        (s.step (.register (n.getD defaultName) kind c)).2.2.byName ∧
      (s.step (.decorate n kind c)).2.1 =
        (s.step (.register (n.getD defaultName) kind c)).2.1 := by
  simp only [step]
  cases s.byName.get? (n.getD defaultName) <;> exact ⟨rfl, rfl⟩

theorem get?_step_register (s : Registries φ) (n kind : String) (factory : φ) (name : String) :
    (s.step (.register n kind factory)).2.2.byName.get? name =
      s.registryAfter name (.register n kind factory) := by
  by_cases hn : n = name
  · subst hn
    cases h : s.byName.get? n with
    | none => simp only [step, h, registryAfter, Option.map_none, ite_self]
    | some r =>
      simp only [step, h, get?_put, registryAfter, if_pos, Option.map_some, Registry.register]
  · cases h : s.byName.get? n <;> simp only [step, h, get?_put, registryAfter, if_neg hn]

theorem get?_step (s : Registries φ) (op : Operation φ) (name : String) :
    (s.step op).2.2.byName.get? name = s.registryAfter name op := by
  cases op with
  | create n factories => simp only [step, Registry.ofFactories_eq, get?_put, registryAfter]
  | copy source n =>
    cases h : s.byName.get? source with
    | none => simp only [step, h, registryAfter, Option.none_or, ite_self]
    | some r =>
      simp only [step, h, Registry.copy, Registry.ofFactories_eq, get?_put, registryAfter,
        Option.some_or]
  | register n kind factory => exact get?_step_register s n kind factory name
  | decorate n kind c =>
    rw [(step_decorate s n kind c).1]
    exact get?_step_register s (n.getD defaultName) kind c name
  | ask n query =>
    simp only [step, registryAfter]
    split <;> rfl

theorem step_of_missing (hop : op.needed? = some name) (hr : s.byName.get? name = none) :
    (s.step op).1 = .noRegistry := by
  cases op with
  | create => cases hop
  | copy | register | decorate | ask =>
    cases hop
    simp only [step, hr]

/-- A warning tells of each replacement, and nothing else is logged. -/
theorem log_step (s : Registries φ) (op : Operation φ) :
    (s.step op).2.1 =
      match op.registration? with
      | some (name, kind, _) =>
        if ((s.byName.get? name).bind (OrderedMap.get? · kind)).isSome then
          [Registry.replacing kind]
        else []
      | none => [] := by
  have hregister : ∀ n kind (factory : φ), (s.step (.register n kind factory)).2.1 =
      if ((s.byName.get? n).bind (OrderedMap.get? · kind)).isSome then [Registry.replacing kind]
      else [] := by
    intro n kind factory
    cases h : s.byName.get? n <;> simp only [step, h] <;> rfl
  cases op with
  | create n factories => simp only [step, Registry.ofFactories_eq, Operation.registration?]
  | copy source n =>
    simp only [step, Registry.copy, Registry.ofFactories_eq, Operation.registration?]
    split <;> rfl
  | register n kind factory => exact hregister n kind factory
  | decorate n kind c => exact (step_decorate s n kind c).2.trans (hregister _ kind c)
  | ask n query =>
    simp only [step, Operation.registration?]
    split <;> rfl

/-! ## Runs of operations -/

omit [DecidableEq φ]

/-- The registries are what the operations tell, the latest operation standing first. -/
structure Traced (builtin : Registry φ) (past : List (Operation φ)) (s : Registries φ) : Prop where
  made : ∀ name, (s.byName.get? name).isSome ↔ Made past name
  held : ∀ name kind, (s.byName.get? name).bind (OrderedMap.get? · kind) =
    lastRegistered builtin past name kind

variable {builtin : Registry φ} {past : List (Operation φ)}

theorem traced_start (builtin : Registry φ) : Traced builtin [] (start builtin) := by
  have hget : ∀ name, (start builtin).byName.get? name =
      if defaultName = name then some builtin else none := fun _ => rfl
  constructor
  · intro name
    rw [hget, Made]
    by_cases h : defaultName = name
    · simp [h]
    · simp [h, Ne.symm h]
  · intro name kind
    rw [hget, lastRegistered]
    by_cases h : defaultName = name
    · simp [h]
    · simp [h, Ne.symm h]

theorem Traced.made_of_some (h : Traced builtin past s) {r : Registry φ}
    (hr : s.byName.get? name = some r) : Made past name :=
  (h.made name).1 (by rw [hr]; rfl)

theorem Traced.not_made_of_none (h : Traced builtin past s) (hr : s.byName.get? name = none) :
    ¬Made past name := fun hm => by
  have hsome := (h.made name).2 hm
  rw [hr] at hsome
  cases hsome

/-- All observers of a registry tell what was last registered on it. -/
theorem Traced.shows (h : Traced builtin past s) {r : Registry φ}
    (hr : s.byName.get? name = some r) : r.Shows (lastRegistered builtin past name) := by
  have hheld : lastRegistered builtin past name = OrderedMap.get? r := funext fun kind => by
    rw [← h.held name kind, hr, Option.bind_some]
  rw [hheld]
  exact r.shows_get?

/-- Going back from a registration: it counts where there was a registry to write to. -/
theorem Traced.held_register (h : Traced builtin past s) (n kind : String) (factory : φ)
    (name k : String) :
    (s.registryAfter name (.register n kind factory)).bind (OrderedMap.get? · k) =
      if n = name ∧ kind = k ∧ Made past name then some factory
      else lastRegistered builtin past name k := by
  rw [registryAfter]
  by_cases hn : n = name
  · rw [if_pos hn, ← h.held name k]
    cases hr : s.byName.get? name with
    | none => simp [h.not_made_of_none hr]
    | some r =>
      by_cases hk : kind = k <;>
        simp [hn, hk, h.made_of_some hr, OrderedMap.get?_insert]
  · rw [if_neg hn, if_neg fun hc => hn hc.1, h.held]

theorem Traced.made_step [DecidableEq φ] (h : Traced builtin past s) (op : Operation φ)
    (name : String) : ((s.step op).2.2.byName.get? name).isSome ↔ Made (op :: past) name := by
  rw [get?_step]
  cases op with
  | create n factories =>
    rw [Made, ← h.made name, registryAfter]
    split <;> simp [*]
  | copy source n =>
    rw [Made, ← h.made name, ← h.made source, registryAfter]
    split <;> simp [*]
  | register n kind factory =>
    rw [Made, ← h.made name, registryAfter]
    split <;> simp
  | decorate n kind c =>
    rw [Made, ← h.made name, registryAfter]
    split <;> simp
  | ask n query => exact h.made name

theorem Traced.held_step [DecidableEq φ] (h : Traced builtin past s) (op : Operation φ)
    (name kind : String) : ((s.step op).2.2.byName.get? name).bind (OrderedMap.get? · kind) =
      lastRegistered builtin (op :: past) name kind := by
  rw [get?_step]
  cases op with
  | create n factories =>
    rw [lastRegistered, ← h.held name kind, registryAfter]
    split <;> rfl
  | copy source n =>
    rw [lastRegistered, ← h.held name kind, ← h.held source kind, registryAfter]
    by_cases hn : n = name
    · rw [if_pos hn]
      cases hr : s.byName.get? source with
      | none => rw [if_neg fun hc => h.not_made_of_none hr hc.2, Option.none_or]
      | some r => rw [if_pos ⟨hn, h.made_of_some hr⟩, Option.some_or]
    · rw [if_neg hn, if_neg fun hc => hn hc.1]
  | register n k factory => exact h.held_register n k factory name kind
  | decorate n k c => exact h.held_register (n.getD defaultName) k c name kind
  | ask n query => exact h.held name kind

theorem Traced.step [DecidableEq φ] (h : Traced builtin past s) (op : Operation φ) :
    Traced builtin (op :: past) (s.step op).2.2 :=
  ⟨h.made_step op, h.held_step op⟩

theorem Traced.after [DecidableEq φ] (h : Traced builtin past s) (ops : List (Operation φ)) :
    Traced builtin (ops.reverse ++ past) (s.after ops) := by
  induction ops generalizing s past with
  | nil => exact h
  | cons op ops ih =>
    rw [List.reverse_cons, List.append_assoc]
    exact ih (h.step op)

theorem answers_answer {r : Registry φ} {held : String → Option φ} (h : r.Shows held)
    (query : Registry.Query) : Answers held query (answer r query) := by
  cases query with
  | kinds => exact .kinds h.mem_kinds h.increasing
  | size =>
    rw [answer, h.size]
    exact .size h.mem_kinds h.increasing
  | contains kind =>
    rw [answer, h.contains]
    exact .contains kind
  | lookup kind =>
    rw [answer, h.lookup]
    exact .lookup kind
  | find kind =>
    rw [answer, h.find]
    cases hk : held kind with
    | none => exact .unknown hk
    | some factory => exact .found hk

theorem Traced.answered [DecidableEq φ] (h : Traced builtin past s) (op : Operation φ) :
    Answered builtin past op (s.step op).1 := by
  cases hn : op.needed? with
  | none =>
    cases op with
    | create n factories => exact .created n factories
    | _ => cases hn
  | some name =>
    cases hr : s.byName.get? name with
    | none =>
      rw [step_of_missing hn hr]
      exact .noRegistry hn (h.not_made_of_none hr)
    | some r =>
      have hmade := h.made_of_some hr
      cases op with
      | create => cases hn
      | copy source n =>
        cases hn
        simp only [Registries.step, hr]
        exact .copied hmade n
      | register n kind factory =>
        cases hn
        simp only [Registries.step, hr]
        exact .registered hmade kind factory
      | decorate n kind c =>
        cases hn
        simp only [Registries.step, hr]
        exact .decorated hmade kind c
      | ask n query =>
        cases hn
        simp only [Registries.step, hr]
        exact .asked hmade (answers_answer (h.shows hr) query)

/-- Every operation of a run is answered by what the operations before it tell. -/
theorem answered_after [DecidableEq φ] (builtin : Registry φ) (ops : List (Operation φ))
    (op : Operation φ) :
    Answered builtin ops.reverse op (((start builtin).after ops).step op).1 := by
  have h := (traced_start builtin).after ops
  rw [List.append_nil] at h
  exact h.answered op

/-- At every point of a run: the registries that were made are there, all observers of each tell
what was last registered on it, the next operation warns of a replacement exactly if it registers a
kind that is served already, and it leaves all registries but its own as they are. -/
theorem run_traced [DecidableEq φ] (builtin : Registry φ) (ops : List (Operation φ))
    (op : Operation φ) :
    let s := (start builtin).after ops
    let held := lastRegistered builtin ops.reverse
    (∀ name,
      match s.byName.get? name with
      | some r => Made ops.reverse name ∧ r.Shows (held name)
      | none => ¬Made ops.reverse name) ∧
    (s.step op).2.1 =
      (match op.registration? with
      | some (name, kind, _) => if (held name kind).isSome then [Registry.replacing kind] else []
      | none => []) ∧
    ∀ name, op.target? = some name ∨
      (s.step op).2.2.byName.get? name = s.byName.get? name := by
  intro s held
  have h : Traced builtin ops.reverse s := by
    simpa only [List.append_nil] using (traced_start builtin).after ops
  refine ⟨fun name => ?_, ?_, fun name => ?_⟩
  · split
    next r hr => exact ⟨h.made_of_some hr, h.shows hr⟩
    next hr => exact h.not_made_of_none hr
  · rw [log_step]
    split
    · rw [h.held]
    · rfl
  · by_cases hn : op.target? = some name
    · exact .inl hn
    · exact .inr ((get?_step s op name).trans (registryAfter_of_ne hn))

end Registries
end RouteCompiler
