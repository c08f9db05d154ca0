import RouteCompiler.Proofs.Compile
import RouteCompiler.Traversal

/-!
What a traversal does, for visitors of any kind: it dispatches the places of an integration in
order, from the first on, up to the first whose visitor fails or does not continue. `IsTrace` says
this of a list of dispatches without the traversal's own recursion; a traversal has exactly one
trace, and its result can be read off the end of it.
-/

namespace RouteCompiler

/-! ## Places -/

/-- The places of an integration: every position, counted from one, with its step. -/
def StepCursor.places (steps : List Step) : List StepCursor :=
  steps.mapIdx fun i s => ⟨i + 1, s, steps, Nat.le_add_left 1 i⟩

namespace StepCursor

@[simp] theorem length_places (steps : List Step) : (places steps).length = steps.length := by
  simp [places]

theorem getElem?_places (steps : List Step) (i : Nat) :
    (places steps)[i]? = steps[i]?.map fun s => ⟨i + 1, s, steps, Nat.le_add_left 1 i⟩ := by
  simp [places]

theorem first?_eq (steps : List Step) : first? steps = (places steps)[0]? := by
  cases steps with
  | nil => rfl
  | cons s r => rw [getElem?_places]; rfl

theorem next?_eq (c : StepCursor) : c.next? = (places c.steps)[c.index]? := by
  rw [getElem?_places]
  rw [next?]
  split
  · rename_i h
    simp [List.getElem?_eq_getElem h]
  · rename_i h
    simp [List.getElem?_eq_none (Nat.le_of_not_lt h)]

theorem eq_of_getElem?_places {steps : List Step} {i : Nat} {c : StepCursor}
    (h : (places steps)[i]? = some c) : c.steps = steps ∧ c.index = i + 1 := by
  rw [getElem?_places] at h
  obtain ⟨s, -, rfl⟩ := Option.map_eq_some_iff.1 h
  exact ⟨rfl, rfl⟩

end StepCursor

/-! ## Dispatches -/

/-- What dispatching a place comes to. -/
inductive Outcome
  /-- Nothing serves the kind of the step. -/
  | unknownKind
  /-- The visit failed, or asking whether to go on did. -/
  | raised (e : Failure)
  | visited (element : Option Element) (goesOn : Bool)

namespace Outcome

def goesOn : Outcome → Bool
  | .visited _ b => b
  | _ => false

def element? : Outcome → Option Element
  | .visited e _ => e
  | _ => none

end Outcome

/-- Dispatch one place: look its visitor up, visit, and ask whether to go on. -/
def dispatch (registry : Registry VisitorFactory) (x : Context) (c : StepCursor) (w : Workspace) :
    Outcome × Workspace :=
  match OrderedMap.get? registry c.step.kind with
  | none => (.unknownKind, w)
  | some factory =>
    match ((factory x).visit c).runOn w with
    | (.error e, w) => (.raised e, w)
    | (.ok element, w) =>
      match ((factory x).continues c).runOn w with
      | (.error e, w) => (.raised e, w)
      | (.ok goesOn, w) => (.visited element goesOn, w)

/-- One dispatch of a traversal, and the workspace it left. -/
structure Dispatch where
  cursor : StepCursor
  outcome : Outcome
  after : Workspace

namespace Dispatch

/-- The workspace that the dispatch at index `i` found. -/
def before (w : Workspace) (t : List Dispatch) (i : Nat) : Workspace :=
  ((t.take i).getLast?.map (·.after)).getD w

def elements (t : List Dispatch) : List Element := t.filterMap (·.outcome.element?)

def stop (c : StepCursor) : LogRecord :=
  ⟨.debug, loggerOf (some generatorModule), s!"  [STOP] Traversal ended at step #{c.index}"⟩

/-- How a traversal ends whose last dispatch this is. A visitor that refuses to go on although
there are steps left is put on record. -/
def ending (d : Dispatch) : Except Failure Unit × Workspace :=
  match d.outcome with
  | .unknownKind => (.error (.compile (.unknownStepKind d.cursor.step.kind)), d.after)
  | .raised e => (.error e, d.after)
  | .visited _ goesOn =>
    (.ok (),
      if !goesOn && d.cursor.hasNext then { d.after with log := d.after.log ++ [stop d.cursor] }
      else d.after)

/-- The elements and the workspace that a traversal with this trace leaves. -/
def conclusion (w : Workspace) (t : List Dispatch) : Except Failure (List Element) × Workspace :=
  match t.getLast? with
  | none => (.ok [], w)
  | some d => (d.ending.1.map fun _ => elements t, d.ending.2)

end Dispatch

/-- The dispatches of a traversal that starts with the workspace `w` and has the places `cs` before
it. -/
structure IsTrace (registry : Registry VisitorFactory) (x : Context) (cs : List StepCursor)
    (w : Workspace) (t : List Dispatch) : Prop where
  /-- The places come in their order, from the first on, each once. -/
  inOrder : t.map (·.cursor) <+: cs
  /-- Each dispatch works on what the one before it left. -/
  dispatched : ∀ i (h : i < t.length),
    dispatch registry x t[i].cursor (Dispatch.before w t i) = (t[i].outcome, t[i].after)
  /-- Behind each place but the last its visitor goes on. -/
  goesOn : ∀ i (h : i + 1 < t.length), t[i].outcome.goesOn = true
  /-- Where places are left, the last dispatch does not go on. -/
  ends : t.length < cs.length → ∃ d, t.getLast? = some d ∧ d.outcome.goesOn = false

/-- The trace of a traversal, place by place. -/
def traceOf (registry : Registry VisitorFactory) (x : Context) :
    List StepCursor → Workspace → List Dispatch
  | [], _ => []
  | c :: cs, w =>
    let o := dispatch registry x c w
    ⟨c, o.1, o.2⟩ :: if o.1.goesOn then traceOf registry x cs o.2 else []

section
variable {registry : Registry VisitorFactory} {x : Context} {c : StepCursor} {cs : List StepCursor}
  {w : Workspace} {t : List Dispatch}

theorem isTrace_nil_iff : IsTrace registry x [] w t ↔ t = [] := by
  constructor
  · intro h
    simpa using h.inOrder
  · rintro rfl
    exact ⟨by simp, by simp, by simp, by simp⟩

theorem Dispatch.before_cons (d : Dispatch) (i : Nat) :
    Dispatch.before w (d :: t) (i + 1) = Dispatch.before d.after t i := by
  simp only [before, List.take_succ_cons, List.getLast?_cons]
  cases (t.take i).getLast? <;> rfl

/-- Behind a visitor that goes on, the rest of a trace is a trace of the other places. -/
theorem IsTrace.tail {d : Dispatch} (h : IsTrace registry x (c :: cs) w (d :: t))
    (hg : d.outcome.goesOn = true) : IsTrace registry x cs d.after t := by
  obtain ⟨-, hr⟩ : d.cursor = c ∧ t.map (·.cursor) <+: cs := by simpa using h.inOrder
  refine ⟨hr, fun i hi => ?_, fun i hi => ?_, fun hl => ?_⟩
  · rw [← Dispatch.before_cons (w := w)]
    exact h.dispatched (i + 1) (by simpa using hi)
  · simpa using h.goesOn (i + 1) (by simpa using hi)
  · obtain ⟨e, he, hs⟩ := h.ends (by simpa using hl)
    cases t with
    | nil => simp_all
    | cons d' t => exact ⟨e, by simpa using he, hs⟩

theorem IsTrace.cons (hg : (dispatch registry x c w).1.goesOn = true)
    (h : IsTrace registry x cs (dispatch registry x c w).2 t) :
    IsTrace registry x (c :: cs) w
      (⟨c, (dispatch registry x c w).1, (dispatch registry x c w).2⟩ :: t) := by
  refine ⟨by simpa using h.inOrder, fun i hi => ?_, fun i hi => ?_, fun hl => ?_⟩
  · cases i with
    | zero => rfl
    | succ i =>
      rw [Dispatch.before_cons]
      simpa using h.dispatched i (by simpa using hi)
  · cases i with
    | zero => exact hg
    | succ i => simpa using h.goesOn i (by simpa using hi)
  · obtain ⟨d, hd, hs⟩ := h.ends (by simpa using hl)
    exact ⟨d, by simp [List.getLast?_cons, hd], hs⟩

theorem isTrace_singleton (hg : (dispatch registry x c w).1.goesOn = false) :
    IsTrace registry x (c :: cs) w
      [⟨c, (dispatch registry x c w).1, (dispatch registry x c w).2⟩] := by
  refine ⟨by simp, fun i hi => ?_, fun i hi => ?_, fun _ => ⟨_, rfl, hg⟩⟩
  · obtain rfl : i = 0 := by simpa using hi
    rfl
  · simp at hi

/-- A trace begins with the first place and goes on as a trace of the others, if its visitor
does. -/
theorem isTrace_cons_iff : IsTrace registry x (c :: cs) w t ↔
    ∃ t', t = ⟨c, (dispatch registry x c w).1, (dispatch registry x c w).2⟩ :: t' ∧
      if (dispatch registry x c w).1.goesOn then
        IsTrace registry x cs (dispatch registry x c w).2 t'
      else t' = [] := by
  constructor
  · intro h
    cases t with
    | nil =>
      obtain ⟨d, hd, -⟩ := h.ends (by simp)
      cases hd
    | cons d t' =>
      obtain ⟨hc, -⟩ : d.cursor = c ∧ t'.map (·.cursor) <+: cs := by
        simpa using h.inOrder
      have hd : dispatch registry x c w = (d.outcome, d.after) :=
        hc ▸ h.dispatched 0 (by simp)
      refine ⟨t', by rw [hd, ← hc], ?_⟩
      rw [hd]
      cases hg : d.outcome.goesOn with
      | true => exact h.tail hg
      | false =>
        cases t' with
        | nil => rfl
        | cons d' t'' =>
          have := h.goesOn 0 (by simp)
          simp_all
  · rintro ⟨t', rfl, h⟩
    cases hg : (dispatch registry x c w).1.goesOn with
    | true =>
      rw [if_pos hg] at h
      exact h.cons hg
    | false =>
      obtain rfl : t' = [] := by simpa [hg] using h
      exact isTrace_singleton hg

/-- There is one trace. -/
theorem isTrace_iff : IsTrace registry x cs w t ↔ t = traceOf registry x cs w := by
  induction cs generalizing w t with
  | nil => exact isTrace_nil_iff
  | cons c cs ih =>
    rw [isTrace_cons_iff, traceOf]
    cases h : (dispatch registry x c w).1.goesOn <;> simp [ih]

theorem Dispatch.conclusion_cons (d : Dispatch) (h : d.outcome.goesOn = true) :
    Dispatch.conclusion w (d :: t) =
      ((Dispatch.conclusion d.after t).1.map (d.outcome.element?.toList ++ ·),
        (Dispatch.conclusion d.after t).2) := by
  have he : Dispatch.elements (d :: t) = d.outcome.element?.toList ++ Dispatch.elements t := by
    cases h : d.outcome.element? <;> simp [elements, h]
  have hd : d.ending = (.ok (), d.after) := by
    cases ho : d.outcome <;> simp_all [ending, Outcome.goesOn]
  simp only [conclusion]
  rw [List.getLast?_cons]
  cases hl : t.getLast? with
  | none =>
    obtain rfl : t = [] := by simpa using hl
    rw [he]
    simp [hd, elements, Except.map]
  | some l =>
    simp only [Option.getD_some, he]
    cases l.ending.1 <;> simp [Except.map]

/-! ## The traversal -/

/-- A visitor that does not go on is the end, which is put on record where there are steps left. -/
theorem Dispatch.conclusion_refused (element : Option Element) (w' : Workspace) :
    Dispatch.conclusion w [⟨c, .visited element false, w'⟩] =
      (.ok element.toList,
        if c.hasNext then { w' with log := w'.log ++ [stop c] } else w') := by
  have he : elements [⟨c, .visited element false, w'⟩] = element.toList := by
    cases element <;> rfl
  simp only [conclusion, List.getLast?_singleton, he, ending, Bool.not_false, Bool.true_and]
  rfl

/-- A traversal from a place on is the dispatch of that place and, if its visitor goes on, the
traversal from the next. -/
theorem runOn_visitFrom {o : Outcome} {w' : Workspace} (h : dispatch registry x c w = (o, w')) :
    (visitFrom registry x c).runOn w =
      if o.goesOn then
        match c.next? with
        | none => (.ok o.element?.toList, w')
        | some d =>
          let r := (visitFrom registry x d).runOn w'
          (r.1.map (o.element?.toList ++ ·), r.2)
      else Dispatch.conclusion w [⟨c, o, w'⟩] := by
  rw [visitFrom, Registry.find]
  cases hf : OrderedMap.get? registry c.step.kind with
  | none =>
    simp only [dispatch, hf] at h
    cases h
    rfl
  | some factory =>
    obtain ⟨visited, w₁, hv⟩ : ∃ r w₁, ((factory x).visit c).runOn w = (r, w₁) := ⟨_, _, rfl⟩
    cases visited with
    | error e =>
      simp only [dispatch, hf, hv] at h
      cases h
      exact Compile.runOn_bind_error hv _
    | ok element =>
      refine (Compile.runOn_bind_ok hv _).trans ?_
      obtain ⟨asked, w₂, ha⟩ : ∃ r w₂, ((factory x).continues c).runOn w₁ = (r, w₂) := ⟨_, _, rfl⟩
      cases asked with
      | error e =>
        simp only [dispatch, hf, hv, ha] at h
        cases h
        exact Compile.runOn_bind_error ha _
      | ok goesOn =>
        simp only [dispatch, hf, hv, ha] at h
        cases h
        refine (Compile.runOn_bind_ok ha _).trans ?_
        cases goesOn with
        | true =>
          simp only [if_true, Outcome.goesOn, Outcome.element?]
          split
          · rename_i hn
            simp [hn]
          · rename_i d hn
            simp only [hn, Compile.runOn_bind]
            cases (visitFrom registry x d).runOn w' with
            | mk r w₃ => cases r <;> rfl
        | false =>
          rw [Dispatch.conclusion_refused]
          cases c.hasNext <;> rfl

/-- From any place of an integration on, the traversal ends as its trace says. -/
theorem runOn_visitFrom_eq_conclusion {steps : List Step} {i : Nat}
    (h : (StepCursor.places steps)[i]? = some c) (w : Workspace) :
    (visitFrom registry x c).runOn w =
      Dispatch.conclusion w (traceOf registry x ((StepCursor.places steps).drop i) w) := by
  -- The places left get fewer with every step.
  induction hn : steps.length - i generalizing i c w with
  | zero =>
    have : i < steps.length := by
      simpa using (List.getElem?_eq_some_iff.1 h).1
    omega
  | succ n ih =>
    obtain ⟨hs, hi⟩ := StepCursor.eq_of_getElem?_places h
    have hd : (StepCursor.places steps).drop i = c :: (StepCursor.places steps).drop (i + 1) := by
      obtain ⟨hl, rfl⟩ := List.getElem?_eq_some_iff.1 h
      exact List.drop_eq_getElem_cons hl
    have hc : dispatch registry x c w =
        ((dispatch registry x c w).1, (dispatch registry x c w).2) := rfl
    rw [runOn_visitFrom hc, hd, traceOf, c.next?_eq, hs, hi]
    cases hg : (dispatch registry x c w).1.goesOn with
    | false => rfl
    | true =>
      simp only [if_true]
      rw [Dispatch.conclusion_cons _ hg]
      cases hj : (StepCursor.places steps)[i + 1]? with
      | none =>
        have : (StepCursor.places steps).drop (i + 1) = [] := by
          simpa using hj
        simp [this, traceOf, Dispatch.conclusion, Except.map]
      | some d =>
        simp only [ih hj _ (show steps.length - (i + 1) = n by omega)]

end

theorem runOn_generateFlow_eq_conclusion (registry : Registry VisitorFactory) (settings : Settings)
    (r : FlowRequest) (w : Workspace) :
    (generateFlow registry settings r).runOn w =
      let t := traceOf registry ⟨settings, r⟩ (StepCursor.places r.integration.steps) w
      ((Dispatch.conclusion w t).1.map fun steps => ⟨some r.integration.name, steps⟩,
        (Dispatch.conclusion w t).2) := by
  rw [generateFlow, StepCursor.first?_eq]
  cases h : (StepCursor.places r.integration.steps)[0]? with
  | none =>
    have hs : StepCursor.places r.integration.steps = [] := by
      simpa only [List.getElem?_eq_none_iff, Nat.le_zero, List.length_eq_zero_iff] using h
    rw [hs]
    rfl
  | some c =>
    simp only [Compile.runOn_bind, runOn_visitFrom_eq_conclusion h, List.drop_zero]
    cases Dispatch.conclusion w (traceOf registry ⟨settings, r⟩
      (StepCursor.places r.integration.steps) w) with
    | mk a w' => cases a <;> rfl

/-- The traversal of a request dispatches the places of its integration as the one trace there is,
and ends as the last dispatch says. -/
theorem generateFlow_follows_trace (registry : Registry VisitorFactory) (settings : Settings)
    (r : FlowRequest) (w : Workspace) :
    ∃ t, (∀ t', IsTrace registry ⟨settings, r⟩ (StepCursor.places r.integration.steps) w t' ↔
        t' = t) ∧
      (generateFlow registry settings r).runOn w =
        ((Dispatch.conclusion w t).1.map fun steps => ⟨some r.integration.name, steps⟩,
          (Dispatch.conclusion w t).2) :=
  ⟨_, fun _ => isTrace_iff, runOn_generateFlow_eq_conclusion registry settings r w⟩

end RouteCompiler
