import Mathlib.Data.List.Basic
import RouteCompiler.Text.Blank

/-!
Texts with escapes, as Java source files and property files have them. A reader goes through the
characters with what it has of an escape so far, and gives the code units that the text stands for.
What it does at a backslash is the rule of the format; without backslashes a text stands for itself.
-/

namespace RouteCompiler.Text

/-- The code units of a character in UTF-16. -/
def codeUnits (c : Char) : List Nat :=
  if c.toNat < 0x10000 then [c.toNat]
  else [0xd800 + (c.toNat - 0x10000) / 0x400, 0xdc00 + (c.toNat - 0x10000) % 0x400]

theorem length_codeUnits_pos (c : Char) : 0 < (codeUnits c).length := by
  rw [codeUnits]
  split <;> simp

def units (cs : List Char) : List Nat := cs.flatMap codeUnits

@[simp] theorem units_append (xs ys : List Char) : units (xs ++ ys) = units xs ++ units ys :=
  List.flatMap_append

/-- What a format makes of a backslash. Before a `u` it begins the escape of a code unit. -/
structure EscapeRules where
  /-- What it stands for together with another character. -/
  other : Char → List Nat
  /-- What it stands for at the end of the text. -/
  dangling : List Nat
  /-- The `u` may stand several times. -/
  repeats : Bool

/-- What has been read of an escape. -/
inductive EscapeState
  | plain
  | escaped
  | marked
  /-- The value of the digits so far; one digit is missing, and `more` behind it. -/
  | digits (more value : Nat)
  deriving DecidableEq

namespace EscapeRules

variable (rules : EscapeRules)

/-- The units that are complete with a character, and what is begun with it. -/
def step : EscapeState → Char → Option (List Nat × EscapeState)
  | .plain, c => some (if c = '\\' then ([], .escaped) else (codeUnits c, .plain))
  | .escaped, c => some (if c = 'u' then ([], .marked) else (rules.other c, .plain))
  | .marked, c =>
    if rules.repeats && c = 'u' then some ([], .marked)
    else (hexValue? c).map fun d => ([], .digits 2 d)
  | .digits 0 value, c => (hexValue? c).map fun d => ([16 * value + d], .plain)
  | .digits (more + 1) value, c => (hexValue? c).map fun d => ([], .digits more (16 * value + d))

def finish : EscapeState → Option (List Nat)
  | .plain => some []
  | .escaped => some rules.dangling
  | .marked => none
  | .digits _ _ => none

/-- The units of a text, unless an escape in it is broken off. -/
def decodeFrom : EscapeState → List Char → Option (List Nat)
  | s, [] => rules.finish s
  | s, c :: cs => (rules.step s c).bind fun out => (decodeFrom out.2 cs).map (out.1 ++ ·)

def decode (cs : List Char) : Option (List Nat) := rules.decodeFrom .plain cs

/-! ## Texts without a backslash -/

theorem step_plain {c : Char} (h : c ≠ '\\') :
    rules.step .plain c = some (codeUnits c, .plain) := by
  rw [step, if_neg h]

theorem decodeFrom_plain_append {xs : List Char} (h : '\\' ∉ xs) (ys : List Char) :
    rules.decodeFrom .plain (xs ++ ys) = (rules.decodeFrom .plain ys).map (units xs ++ ·) := by
  induction xs with
  | nil => simp [units]
  | cons c xs ih =>
    rw [List.mem_cons, not_or] at h
    rw [List.cons_append, decodeFrom, rules.step_plain (Ne.symm h.1), Option.bind_some, ih h.2,
      Option.map_map]
    simp [units, Function.comp_def]

theorem decode_append {xs : List Char} (h : '\\' ∉ xs) (ys : List Char) :
    rules.decode (xs ++ ys) = (rules.decode ys).map (units xs ++ ·) :=
  rules.decodeFrom_plain_append h ys

/-- A text without a backslash stands for itself. -/
theorem decode_eq_units {cs : List Char} (h : '\\' ∉ cs) : rules.decode cs = some (units cs) := by
  have hend := rules.decode_append h []
  rw [List.append_nil] at hend
  rw [hend]
  simp [decode, decodeFrom, finish]

/-! ## Characters that end an escape -/

/-- A character that leaves nothing begun divides the text. -/
theorem decodeFrom_append_cons {c : Char}
    (hc : ∀ s, rules.step s c = (rules.finish s).map fun out => (out ++ codeUnits c, .plain))
    (s : EscapeState) (xs ys : List Char) :
    rules.decodeFrom s (xs ++ c :: ys) = (rules.decodeFrom s xs).bind fun before =>
      (rules.decode ys).map fun after => before ++ codeUnits c ++ after := by
  induction xs generalizing s with
  | nil =>
    rw [List.nil_append, decodeFrom, decodeFrom, hc, Option.bind_map]
    rfl
  | cons d xs ih =>
    rw [List.cons_append, decodeFrom, decodeFrom]
    cases rules.step s d with
    | none => rfl
    | some out =>
      rw [Option.bind_some, Option.bind_some, ih]
      cases rules.decodeFrom out.2 xs with
      | none => rfl
      | some before =>
        cases rules.decode ys with
        | none => rfl
        | some after => simp

/-! ## Escapes are longer than what they stand for -/

section
variable {rules : EscapeRules}

/-- No escape of the format stands for more units than it has. -/
structure Shortens (rules : EscapeRules) : Prop where
  other : ∀ c, (rules.other c).length ≤ (codeUnits c).length
  dangling : rules.dangling = []

theorem length_step_le (h : rules.Shortens) {s s' : EscapeState} {c : Char} {out : List Nat}
    (hs : rules.step s c = some (out, s')) : out.length ≤ (codeUnits c).length := by
  have hc := length_codeUnits_pos c
  cases s with
  | plain =>
    rw [step, Option.some.injEq] at hs
    split at hs <;> cases hs
    · exact Nat.zero_le _
    · exact Nat.le_refl _
  | escaped =>
    rw [step, Option.some.injEq] at hs
    split at hs <;> cases hs
    · exact Nat.zero_le _
    · exact h.other c
  | marked =>
    rw [step] at hs
    split at hs
    · cases hs
      exact Nat.zero_le _
    · obtain ⟨d, -, hd⟩ := Option.map_eq_some_iff.1 hs
      cases hd
      exact Nat.zero_le _
  | digits more value =>
    cases more with
    | zero =>
      obtain ⟨d, -, hd⟩ := Option.map_eq_some_iff.1 hs
      cases hd
      exact hc
    | succ more =>
      obtain ⟨d, -, hd⟩ := Option.map_eq_some_iff.1 hs
      cases hd
      exact Nat.zero_le _

theorem decodeFrom_cons_eq_some {s : EscapeState} {c : Char} {cs : List Char} {us : List Nat}
    (h : rules.decodeFrom s (c :: cs) = some us) :
    ∃ out s' rest, rules.step s c = some (out, s') ∧ rules.decodeFrom s' cs = some rest ∧
      us = out ++ rest := by
  obtain ⟨⟨out, s'⟩, hs, h⟩ := Option.bind_eq_some_iff.1 h
  obtain ⟨rest, hrest, rfl⟩ := Option.map_eq_some_iff.1 h
  exact ⟨out, s', rest, hs, hrest, rfl⟩

theorem length_decodeFrom_le (h : rules.Shortens) {s : EscapeState} {cs : List Char}
    {us : List Nat} (hus : rules.decodeFrom s cs = some us) : us.length ≤ (units cs).length := by
  induction cs generalizing s us with
  | nil =>
    cases s with
    | plain => cases hus; exact Nat.le_refl _
    | escaped =>
      rw [decodeFrom, finish, h.dangling] at hus
      cases hus
      exact Nat.le_refl _
    | marked => cases hus
    | digits more value => cases hus
  | cons c cs ih =>
    obtain ⟨out, s', rest, hs, hrest, rfl⟩ := decodeFrom_cons_eq_some hus
    have hout := length_step_le h hs
    have hle := ih hrest
    rw [units, List.flatMap_cons, List.length_append, List.length_append]
    exact Nat.add_le_add hout hle

/-- A text with a backslash stands for a shorter one. -/
theorem length_decode_lt (h : rules.Shortens) {cs : List Char} (hmem : '\\' ∈ cs) {us : List Nat}
    (hus : rules.decode cs = some us) : us.length < (units cs).length := by
  obtain ⟨before, after, rfl, hbefore⟩ := List.eq_append_cons_of_mem hmem
  rw [rules.decode_append hbefore] at hus
  obtain ⟨rest, hrest, rfl⟩ := Option.map_eq_some_iff.1 hus
  obtain ⟨out, s', rest, hs, hrest, rfl⟩ := decodeFrom_cons_eq_some hrest
  cases hs
  have hle := length_decodeFrom_le h hrest
  have hbackslash : codeUnits '\\' = [92] := by decide
  simp only [units, List.flatMap_append, List.flatMap_cons, List.length_append, hbackslash,
    List.length_cons, List.length_nil] at hle ⊢
  omega

/-! ## The last character -/

/-- How many characters an escape can still take. -/
def owed : EscapeState → Nat
  | .plain => 0
  | .escaped => 5
  | .marked => 4
  | .digits more _ => more + 1

theorem owed_step_le (h : rules.repeats = false) {s s' : EscapeState} {c : Char} {out : List Nat}
    (hs : rules.step s c = some (out, s')) (hc : s = .plain → c ≠ '\\') :
    owed s' ≤ owed s - 1 := by
  cases s with
  | plain =>
    rw [step_plain rules (hc rfl)] at hs
    cases hs
    exact Nat.le_refl _
  | escaped =>
    rw [step, Option.some.injEq] at hs
    split at hs <;> cases hs <;> decide
  | marked =>
    rw [step, h, Bool.false_and, if_neg Bool.false_ne_true] at hs
    obtain ⟨d, -, hd⟩ := Option.map_eq_some_iff.1 hs
    cases hd
    exact Nat.le_refl _
  | digits more value =>
    cases more with
    | zero =>
      obtain ⟨d, -, hd⟩ := Option.map_eq_some_iff.1 hs
      cases hd
      exact Nat.le_refl _
    | succ more =>
      obtain ⟨d, -, hd⟩ := Option.map_eq_some_iff.1 hs
      cases hd
      exact Nat.le_refl _

theorem owed_step_le_five (h : rules.repeats = false) {s s' : EscapeState} {c : Char}
    {out : List Nat} (hs : rules.step s c = some (out, s')) (hle : owed s ≤ 5) : owed s' ≤ 5 := by
  by_cases hc : s = .plain ∧ c = '\\'
  · obtain ⟨rfl, rfl⟩ := hc
    cases hs
    decide
  · have hless := owed_step_le h hs fun hp hb => hc ⟨hp, hb⟩
    omega

theorem codeUnits_suffix_of_owed (h : rules.repeats = false) {s : EscapeState} {zs : List Char}
    {c : Char} (hmem : '\\' ∉ zs ++ [c]) (howed : owed s ≤ zs.length) {us : List Nat}
    (hus : rules.decodeFrom s (zs ++ [c]) = some us) : codeUnits c <:+ us := by
  induction zs generalizing s us with
  | nil =>
    have hplain : s = .plain := by
      cases s with
      | plain => rfl
      | escaped => cases howed
      | marked => cases howed
      | digits more value => cases howed
    rw [hplain, List.nil_append] at hus
    rw [List.nil_append, List.mem_singleton] at hmem
    obtain ⟨out, s', rest, hs, hrest, rfl⟩ := decodeFrom_cons_eq_some hus
    rw [step_plain rules (Ne.symm hmem)] at hs
    cases hs
    cases hrest
    exact ⟨[], (List.append_nil (codeUnits c)).symm⟩
  | cons d zs ih =>
    rw [List.cons_append, List.mem_cons, not_or] at hmem
    obtain ⟨out, s', rest, hs, hrest, rfl⟩ := decodeFrom_cons_eq_some hus
    have hle := owed_step_le h hs fun _ => Ne.symm hmem.1
    rw [List.length_cons] at howed
    exact (ih hmem.2 (by omega) hrest).trans (List.suffix_append out rest)

theorem codeUnits_suffix_of_decodeFrom (h : rules.repeats = false) {s : EscapeState}
    (hs : owed s ≤ 5) (xs : List Char) {zs : List Char} {c : Char} (hmem : '\\' ∉ zs ++ [c])
    (hlength : 5 ≤ zs.length) {us : List Nat}
    (hus : rules.decodeFrom s (xs ++ (zs ++ [c])) = some us) : codeUnits c <:+ us := by
  induction xs generalizing s us with
  | nil => exact codeUnits_suffix_of_owed h hmem (Nat.le_trans hs hlength) hus
  | cons d xs ih =>
    rw [List.cons_append] at hus
    obtain ⟨out, s', rest, hstep, hrest, rfl⟩ := decodeFrom_cons_eq_some hus
    exact (ih (owed_step_le_five h hstep hs) hrest).trans (List.suffix_append out rest)

/-- An escape takes no more than five characters, so behind five others the last character of a text
stands for itself. -/
theorem codeUnits_suffix_of_decode (h : rules.repeats = false) (xs : List Char) {zs : List Char}
    {c : Char} (hmem : '\\' ∉ zs ++ [c]) (hlength : 5 ≤ zs.length) {us : List Nat}
    (hus : rules.decode (xs ++ (zs ++ [c])) = some us) : codeUnits c <:+ us :=
  codeUnits_suffix_of_decodeFrom h (Nat.zero_le _) xs hmem hlength hus

end

end EscapeRules
end RouteCompiler.Text
