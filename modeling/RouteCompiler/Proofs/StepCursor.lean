import RouteCompiler.Proofs.Traversal

/-!
Cursors that are reached from the first step of an integration by going on. Each is the place of its
position, so that index, step and steps agree; a call more leads to the next place or, from the last
one, to none. So going on visits the places in order, each once, and then ends.
-/

namespace RouteCompiler.StepCursor

variable {steps : List Step} {c : StepCursor} {n : Nat}

/-- Where a number of calls of `next?` lead from the first cursor. -/
def after (steps : List Step) : Nat → Option StepCursor
  | 0 => first? steps
  | n + 1 => (after steps n).bind next?

/-- The cursor and all that going on from it leads to. -/
def onward (c : StepCursor) : List StepCursor :=
  c :: match _h : c.next? with
    | none => []
    | some d => onward d
termination_by c.steps.length - c.index
decreasing_by
  have := steps_of_next? ‹_›
  rw [this.1, this.2.1]
  omega

/-- The cursors of a whole traversal. -/
def visited (steps : List Step) : List StepCursor := (first? steps).elim [] onward

/-! ## Places -/

/-- Going on from a place leads to the place behind it. -/
theorem next?_of_getElem?_places (h : (places steps)[n]? = some c) :
    c.next? = (places steps)[n + 1]? := by
  obtain ⟨hsteps, hindex⟩ := eq_of_getElem?_places h
  rw [next?_eq, hsteps, hindex]

theorem after_eq (steps : List Step) (n : Nat) : after steps n = (places steps)[n]? := by
  induction n with
  | zero => exact first?_eq steps
  | succ n ih =>
    rw [after, ih]
    cases h : (places steps)[n]? with
    | none =>
      have hlen : (places steps).length ≤ n := List.getElem?_eq_none_iff.1 h
      exact (List.getElem?_eq_none_iff.2 (by omega)).symm
    | some c => exact next?_of_getElem?_places h

theorem after_eq_none_iff : after steps n = none ↔ steps.length ≤ n := by
  rw [after_eq, List.getElem?_eq_none_iff, length_places]

theorem onward_eq (h : (places steps)[n]? = some c) : onward c = (places steps).drop n := by
  -- the induction is on the places that are left
  induction c using onward.induct generalizing n with
  | case1 c ih =>
    obtain ⟨hn, hc⟩ := List.getElem?_eq_some_iff.1 h
    have hdrop : (places steps).drop n = c :: (places steps).drop (n + 1) :=
      hc ▸ List.drop_eq_getElem_cons hn
    have hnext := next?_of_getElem?_places h
    rw [onward, hdrop]
    congr 1
    split
    next hnone =>
      rw [hnext, List.getElem?_eq_none_iff] at hnone
      exact (List.drop_eq_nil_of_le hnone).symm
    next d hd => exact ih d hd (hnext ▸ hd)

theorem visited_eq (steps : List Step) : visited steps = places steps := by
  rw [visited, first?_eq]
  cases h : (places steps)[0]? with
  | none =>
    have hnil : (places steps).length ≤ 0 := List.getElem?_eq_none_iff.1 h
    exact (List.length_eq_zero_iff.1 (Nat.le_zero.1 hnil)).symm
  | some c => exact onward_eq h

theorem map_index_places (steps : List Step) :
    (places steps).map (·.index) = List.range' 1 steps.length := by
  refine List.ext_getElem (by simp) fun n _ _ => ?_
  simp only [places, List.getElem_map, List.getElem_mapIdx, List.getElem_range']
  omega

theorem map_step_places (steps : List Step) : (places steps).map (·.step) = steps := by
  refine List.ext_getElem (by simp) fun n _ _ => ?_
  simp only [places, List.getElem_map, List.getElem_mapIdx]

/-! ## Where a cursor stands -/

/-- Index, step and steps of the cursor agree on a position of these steps. -/
structure StandsIn (steps : List Step) (c : StepCursor) : Prop where
  one_le : 1 ≤ c.index
  le_length : c.index ≤ steps.length
  step_eq : steps[c.index - 1]? = some c.step
  steps_eq : c.steps = steps
  /-- What remains is all that stands behind the step. -/
  suffix : ∃ before, before.length + 1 = c.index ∧ steps = before ++ c.step :: c.remaining
  hasNext_iff : c.hasNext = true ↔ c.remaining ≠ []
  ends_iff : c.next? = none ↔ c.hasNext = false

theorem hasNext_iff_remaining (c : StepCursor) : c.hasNext = true ↔ c.remaining ≠ [] := by
  rw [hasNext, remaining, decide_eq_true_iff, Ne, List.drop_eq_nil_iff, Nat.not_le]

theorem standsIn_of_getElem?_places (h : (places steps)[n]? = some c) : StandsIn steps c := by
  rw [getElem?_places] at h
  obtain ⟨s, hs, rfl⟩ := Option.map_eq_some_iff.1 h
  obtain ⟨hn, hget⟩ := List.getElem?_eq_some_iff.1 hs
  refine ⟨Nat.le_add_left 1 n, hn, hs, rfl, ⟨steps.take n, ?_, ?_⟩, hasNext_iff_remaining _,
    next?_eq_none_iff _⟩
  · rw [List.length_take, Nat.min_eq_left (Nat.le_of_lt hn)]
  · calc steps = steps.take n ++ steps.drop n := (List.take_append_drop n steps).symm
      _ = steps.take n ++ s :: steps.drop (n + 1) := by rw [List.drop_eq_getElem_cons hn, hget]

/-- Every cursor that is reached from the first one stands on the position that the calls count up
to. After as many calls as there are steps, and not before, there is none left. So a traversal has a
cursor for each position, in order and each once, and with them the steps. -/
theorem visits_each_step (steps : List Step) :
    (∀ n c, after steps n = some c → StandsIn steps c ∧ c.index = n + 1) ∧
      (∀ n, after steps n = none ↔ steps.length ≤ n) ∧
      (∀ n, (visited steps)[n]? = after steps n) ∧
      (visited steps).map (·.index) = List.range' 1 steps.length ∧
      (visited steps).map (·.step) = steps := by
  rw [visited_eq]
  refine ⟨fun n c h => ?_, fun _ => after_eq_none_iff, fun n => (after_eq steps n).symm,
    map_index_places steps, map_step_places steps⟩
  rw [after_eq] at h
  exact ⟨standsIn_of_getElem?_places h, (eq_of_getElem?_places h).2⟩

/-- The same step stands first and last. -/
def returningSteps : List Step := [{ kind := "log" }, { kind := "mapper" }, { kind := "log" }]

theorem visits_returningSteps :
    ∃ c, after returningSteps 2 = some c ∧ StandsIn returningSteps c ∧ c.index = 3 ∧
      c.remaining = [] ∧ after returningSteps 3 = none ∧
      (visited returningSteps).map (·.index) = [1, 2, 3] := by
  obtain ⟨hreached, hended, -, hindex, -⟩ := visits_each_step returningSteps
  have hlast : after returningSteps 2 =
      some ⟨3, { kind := "log" }, returningSteps, Nat.le_add_left 1 2⟩ := rfl
  obtain ⟨hstands, hcount⟩ := hreached 2 _ hlast
  exact ⟨_, hlast, hstands, hcount, rfl, (hended 3).2 (Nat.le_refl 3), hindex⟩

end RouteCompiler.StepCursor
