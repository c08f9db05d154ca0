import RouteCompiler.Proofs.Text.UnicodeEscape

/-!
Comments of Java source texts. Escapes of code units are translated before anything else is read, so
they can end a comment like the characters they stand for. A text that is put into a comment stays
there exactly if its escapes are well-formed and no end of a comment comes out of them.
-/

namespace RouteCompiler.SourceComment

open Text

/-- A backslash before anything but the marker of an escape stays, with what is behind it. -/
def rules : EscapeRules where
  other := fun c => 92 :: codeUnits c
  dangling := [92]
  repeats := true

/-- What stands before the first pair `a`, `b`, and what stands behind it. -/
def cutAt (a b : Nat) : List Nat → Option (List Nat × List Nat)
  | u :: v :: us =>
    if u = a ∧ v = b then some ([], us)
    else (cutAt a b (v :: us)).map fun cut => (u :: cut.1, cut.2)
  | _ => none

/-- The units of a source text without its first comment. -/
def withoutComment (cs : List Char) : Option (List Nat) := do
  let us ← rules.decode cs
  let (before, us) ← cutAt 47 42 us
  let (_, after) ← cutAt 42 47 us
  return before ++ after

/-- The text can stand in a comment: it has well-formed escapes, and does not end the comment. -/
def StaysInside (cs : List Char) : Prop :=
  ∃ us, rules.decode cs = some us ∧ ¬ [42, 47] <:+: us

/-! ## Cutting -/

section
variable {a b : Nat} {us vs before after : List Nat}

theorem cutAt_append (h : cutAt a b us = some (before, after)) (vs : List Nat) :
    cutAt a b (us ++ vs) = some (before, after ++ vs) := by
  induction us generalizing before with
  | nil => cases h
  | cons u us ih =>
    cases us with
    | nil => cases h
    | cons v us =>
      rw [cutAt] at h
      rw [List.cons_append, List.cons_append, cutAt]
      split at h
      next hpair =>
        cases h
        rw [if_pos hpair]
      next hpair =>
        obtain ⟨cut, hcut, heq⟩ := Option.map_eq_some_iff.1 h
        cases heq
        rw [if_neg hpair, ← List.cons_append, ih hcut]
        rfl

/-- There is no place to cut exactly if the pair is nowhere. -/
theorem cutAt_eq_none_iff : cutAt a b us = none ↔ ¬ [a, b] <:+: us := by
  induction us with
  | nil => simp [cutAt]
  | cons u us ih =>
    rw [List.infix_cons_iff, not_or, ← ih]
    cases us with
    | nil => simp [cutAt, List.prefix_cons_iff]
    | cons v us =>
      rw [cutAt]
      split
      next hpair => simp [hpair]
      next hpair =>
        have hfront : ¬ [a, b] <+: u :: v :: us := by
          simp only [List.cons_prefix_cons, List.nil_prefix, and_true, not_and]
          rintro rfl rfl
          exact hpair ⟨rfl, rfl⟩
        simp [hfront]

/-- The first pair is the one that follows a text without the pair. -/
theorem cutAt_of_absent (hab : a ≠ b) (h : ¬ [a, b] <:+: us) (vs : List Nat) :
    cutAt a b (us ++ a :: b :: vs) = some (us, vs) := by
  induction us with
  | nil => rw [List.nil_append, cutAt, if_pos ⟨rfl, rfl⟩]
  | cons u us ih =>
    rw [List.infix_cons_iff, not_or] at h
    cases us with
    | nil =>
      have hpair : ¬ (u = a ∧ a = b) := fun hpair => hab hpair.2
      rw [List.cons_append, List.nil_append, cutAt, if_neg hpair, cutAt, if_pos ⟨rfl, rfl⟩]
      rfl
    | cons v us =>
      have hpair : ¬ (u = a ∧ v = b) := by
        rintro ⟨rfl, rfl⟩
        exact h.1 ⟨us, rfl⟩
      have hrest := ih h.2
      rw [List.cons_append] at hrest
      rw [List.cons_append, List.cons_append, cutAt, if_neg hpair, hrest]
      rfl

/-- Another unit keeps a pair from lying across it. -/
theorem infix_append_cons_iff {c : Nat} (ha : c ≠ a) (hb : c ≠ b) :
    [a, b] <:+: us ++ c :: vs ↔ [a, b] <:+: us ∨ [a, b] <:+: vs := by
  induction us with
  | nil =>
    rw [List.nil_append, List.infix_cons_iff]
    simp [List.cons_prefix_cons, Ne.symm ha]
  | cons u us ih =>
    rw [List.cons_append, List.infix_cons_iff, List.infix_cons_iff, ih, ← or_assoc]
    cases us with
    | nil => simp [List.cons_prefix_cons, Ne.symm hb]
    | cons v us => simp [List.cons_prefix_cons]

end

/-! ## Texts in a comment -/

/-- A source text with one comment, in which a text is put between quotes. -/
structure Frame where
  before : List Char
  opening : List Char
  closing : List Char
  after : List Char
  unescaped : '\\' ∉ before ∧ '\\' ∉ opening ∧ '\\' ∉ closing ∧ '\\' ∉ after
  opens : ¬ [47, 42] <:+: units before
  stays : ¬ [42, 47] <:+: units opening ∧ ¬ [42, 47] <:+: units closing

namespace Frame

variable (f : Frame) {cs : List Char}

def text (cs : List Char) : List Char :=
  f.before ++ '/' :: '*' ::
    (f.opening ++ '"' :: (cs ++ '"' :: (f.closing ++ '*' :: '/' :: f.after)))

/-- The units from the text on to the end of the comment. -/
def rest (us : List Nat) : List Nat := us ++ 34 :: units f.closing

/-- A quote leaves no escape open. -/
theorem step_quote (s : EscapeState) : rules.step s '"' =
    (rules.finish s).map fun out => (out ++ codeUnits '"', .plain) := by
  cases s with
  | plain => decide
  | escaped => decide
  | marked => decide
  | digits more value => cases more <;> rfl

theorem decode_text (cs : List Char) : rules.decode (f.text cs) =
    (rules.decode cs).map fun us => units f.before ++ 47 :: 42 :: (units f.opening ++
      34 :: f.rest us ++ 42 :: 47 :: units f.after) := by
  obtain ⟨hbefore, hopening, hclosing, hafter⟩ := f.unescaped
  have hfront : '\\' ∉ f.before ++ '/' :: '*' :: (f.opening ++ ['"']) := by
    simp [hbefore, hopening]
  have hback : '\\' ∉ f.closing ++ '*' :: '/' :: f.after := by
    simp [hclosing, hafter]
  have htext : f.text cs = f.before ++ '/' :: '*' :: (f.opening ++ ['"']) ++
      (cs ++ '"' :: (f.closing ++ '*' :: '/' :: f.after)) := by
    simp [text]
  rw [htext, rules.decode_append hfront, EscapeRules.decode,
    rules.decodeFrom_append_cons step_quote, rules.decode_eq_units hback]
  change Option.map _ ((rules.decode cs).bind _) = _
  cases rules.decode cs with
  | none => rfl
  | some us =>
    have hslash : codeUnits '/' = [47] := by decide
    have hstar : codeUnits '*' = [42] := by decide
    have hquote : codeUnits '"' = [34] := by decide
    simp [units, rest, hslash, hstar, hquote]

/-- Without its comment the text is the same whatever is put into it, as long as that stays inside;
else it is another one. -/
theorem withoutComment_text_iff : withoutComment (f.text cs) = some (units (f.before ++ f.after)) ↔
    StaysInside cs := by
  rw [withoutComment, decode_text]
  cases hcs : rules.decode cs with
  | none => simp [StaysInside, hcs]
  | some us =>
    have hinside : StaysInside cs ↔ ¬ [42, 47] <:+: units f.opening ++ 34 :: f.rest us := by
      rw [infix_append_cons_iff (by decide) (by decide), rest,
        infix_append_cons_iff (by decide) (by decide)]
      simp [StaysInside, hcs, f.stays]
    rw [hinside]
    simp only [Option.map_some, Option.bind_eq_bind, Option.bind_some,
      cutAt_of_absent (a := 47) (b := 42) (by decide) f.opens]
    by_cases h : [42, 47] <:+: units f.opening ++ 34 :: f.rest us
    · -- what is left of the comment stands before the rest
      cases hcut : cutAt 42 47 (units f.opening ++ 34 :: f.rest us) with
      | none => exact absurd h (cutAt_eq_none_iff.1 hcut)
      | some cut =>
        rw [cutAt_append hcut, units_append]
        refine ⟨fun heq => ?_, fun hnot => absurd h hnot⟩
        have hafter := List.append_cancel_left (Option.some.inj heq)
        have hlength := congrArg List.length hafter
        rw [List.length_append, List.length_cons, List.length_cons] at hlength
        omega
    · rw [cutAt_of_absent (by decide) h, units_append]
      exact ⟨fun _ => h, fun _ => rfl⟩

end Frame

end RouteCompiler.SourceComment
