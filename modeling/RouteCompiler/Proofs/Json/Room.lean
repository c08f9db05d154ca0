import RouteCompiler.Json.Reader

/-!
Room for containers. The reader stops where it has no room to open another container, and room has
no other effect: a text that is read, or refused for another reason, comes to the same with more.
-/

namespace RouteCompiler.Json

/-- The result of a reader is that of another one, unless it has stopped for want of room. -/
def Narrower {α : Type} (a b : Except Refusal α) : Prop := a = .error .depth ∨ a = b

namespace Narrower

variable {α β : Type} {a b : Except Refusal α}

theorem refl (a : Except Refusal α) : Narrower a a := .inr rfl

theorem eq (h : Narrower a b) (ha : a ≠ .error .depth) : a = b := h.resolve_left ha

theorem bind {g g' : α → Except Refusal β} (h : Narrower a b) (hg : ∀ x, Narrower (g x) (g' x)) :
    Narrower (a >>= g) (b >>= g') := by
  obtain rfl | rfl := h
  · exact .inl rfl
  · cases a with
    | error e => exact .refl _
    | ok x => exact hg x

end Narrower

section
variable {room f : Nat} {r : List Char}

theorem value_quote : value room (f + 1) ('"' :: r) = do
    let (s, r) ← string r
    return (.str s, r) := rfl

theorem value_bracket_full : value 0 (f + 1) ('[' :: r) = .error .depth := rfl

theorem value_bracket : value (room + 1) (f + 1) ('[' :: r) =
    match skip r with
    | ']' :: r => .ok (.arr [], r)
    | r => do
      let (items, r) ← itemsRest room f r
      return (.arr items, r) := rfl

theorem value_brace_full : value 0 (f + 1) ('\x7b' :: r) = .error .depth := rfl

theorem value_brace : value (room + 1) (f + 1) ('\x7b' :: r) =
    match skip r with
    | '\x7d' :: r => .ok (.obj [], r)
    | r => do
      let (members, r) ← membersRest room f r
      return (ofMembers members, r) := rfl

theorem value_scalar {c : Char} (hq : c ≠ '"') (ha : c ≠ '[') (ho : c ≠ '\x7b') :
    value room (f + 1) (c :: r) = scalar (c :: r) := by
  rw [value]
  · simp
  · exact fun _ e => hq (List.cons.inj e).1
  · exact fun _ _ _ e => absurd (List.cons.inj e).1 ha
  · exact fun _ _ _ e => absurd (List.cons.inj e).1 ho

theorem itemsRest_succ {cs : List Char} : itemsRest room (f + 1) cs =
    (do
      let (v, r) ← value room f cs
      match skip r with
      | ']' :: r => return ([v], r)
      | ',' :: r => do
        let (items, r) ← itemsRest room f (skip r)
        return (v :: items, r)
      | r => .error (.fault ⟨.comma, r.length⟩)) := rfl

theorem membersRest_quote : membersRest room (f + 1) ('"' :: r) =
    (do
      let (k, r) ← string r
      match skip r with
      | ':' :: r => do
        let (v, r) ← value room f (skip r)
        match skip r with
        | '\x7d' :: r => return ([(k, v)], r)
        | ',' :: r => do
          let (members, r) ← membersRest room f (skip r)
          return ((k, v) :: members, r)
        | r => .error (.fault ⟨.comma, r.length⟩)
      | r => .error (.fault ⟨.colon, r.length⟩)) := rfl

end

/-- What the three readers of values, items and members have in common with those of more room. -/
structure NarrowerAt (room room' f : Nat) : Prop where
  value : ∀ cs, Narrower (value room f cs) (Json.value room' f cs)
  items : ∀ cs, Narrower (itemsRest room f cs) (itemsRest room' f cs)
  members : ∀ cs, Narrower (membersRest room f cs) (membersRest room' f cs)

namespace NarrowerAt

variable {room room' f : Nat}

theorem value_bracket (h : NarrowerAt room room' f) (r : List Char) :
    Narrower (Json.value (room + 1) (f + 1) ('[' :: r))
      (Json.value (room' + 1) (f + 1) ('[' :: r)) := by
  rw [Json.value_bracket, Json.value_bracket]
  split
  · exact .refl _
  · exact (h.items _).bind fun _ => .refl _

theorem value_brace (h : NarrowerAt room room' f) (r : List Char) :
    Narrower (Json.value (room + 1) (f + 1) ('\x7b' :: r))
      (Json.value (room' + 1) (f + 1) ('\x7b' :: r)) := by
  rw [Json.value_brace, Json.value_brace]
  split
  · exact .refl _
  · exact (h.members _).bind fun _ => .refl _

theorem items_succ (h : NarrowerAt room room' f) (cs : List Char) :
    Narrower (itemsRest room (f + 1) cs) (itemsRest room' (f + 1) cs) := by
  rw [itemsRest_succ, itemsRest_succ]
  refine (h.value _).bind fun ⟨v, r⟩ => ?_
  dsimp only
  split
  · exact .refl _
  · exact (h.items _).bind fun _ => .refl _
  · exact .refl _

theorem members_succ (h : NarrowerAt room room' f) (cs : List Char) :
    Narrower (membersRest room (f + 1) cs) (membersRest room' (f + 1) cs) := by
  cases cs with
  | nil => exact .refl _
  | cons c r =>
    by_cases hc : c = '"'
    · subst hc
      rw [membersRest_quote, membersRest_quote]
      refine (Narrower.refl _).bind fun ⟨k, r⟩ => ?_
      dsimp only
      split
      · refine (h.value _).bind fun ⟨v, r⟩ => ?_
        dsimp only
        split
        · exact .refl _
        · exact (h.members _).bind fun _ => .refl _
        · exact .refl _
      · exact .refl _
    · have hrest (room : Nat) : membersRest room (f + 1) (c :: r) =
          .error (.fault ⟨.propertyName, (c :: r).length⟩) := by
        rw [membersRest]
        · simp
        · exact fun _ _ _ e => absurd (List.cons.inj e).1 hc
      rw [hrest, hrest]
      exact .refl _

theorem of_le (hle : room ≤ room') : NarrowerAt room room' f := by
  induction f generalizing room room' with
  | zero => exact ⟨fun _ => .refl _, fun _ => .refl _, fun _ => .refl _⟩
  | succ f ih =>
    refine ⟨fun cs => ?_, (ih hle).items_succ, (ih hle).members_succ⟩
    cases cs with
    | nil => exact .refl _
    | cons c r =>
      by_cases hq : c = '"'
      · subst hq
        exact .refl _
      by_cases ha : c = '['
      · subst ha
        match room, room', hle with
        | 0, _, _ => exact .inl value_bracket_full
        | room + 1, room' + 1, hle => exact (ih (Nat.le_of_succ_le_succ hle)).value_bracket r
      by_cases ho : c = '\x7b'
      · subst ho
        match room, room', hle with
        | 0, _, _ => exact .inl value_brace_full
        | room + 1, room' + 1, hle => exact (ih (Nat.le_of_succ_le_succ hle)).value_brace r
      · rw [value_scalar hq ha ho, value_scalar hq ha ho]
        exact .refl _

end NarrowerAt

/-- More room makes no difference to a text that fits. -/
theorem readWithin_eq_of_le {room room' : Nat} (hle : room ≤ room') {cs : List Char}
    (h : readWithin room cs ≠ .error .depth) : readWithin room cs = readWithin room' cs := by
  refine Narrower.eq ?_ h
  rw [readWithin, readWithin]
  split
  · exact .refl _
  · exact ((NarrowerAt.of_le hle).value _).bind fun _ => .refl _

theorem readWithin_ok_of_le {room room' : Nat} (hle : room ≤ room') {cs : List Char} {j : Json}
    (h : readWithin room cs = .ok j) : readWithin room' cs = .ok j := by
  rw [← readWithin_eq_of_le hle (by simp [h]), h]

theorem readWithin_error_of_le {room room' : Nat} (hle : room ≤ room') {cs : List Char}
    {e : Refusal} (he : e ≠ .depth) (h : readWithin room cs = .error e) :
    readWithin room' cs = .error e := by
  rw [← readWithin_eq_of_le hle (by simpa [h] using he), h]

end RouteCompiler.Json
