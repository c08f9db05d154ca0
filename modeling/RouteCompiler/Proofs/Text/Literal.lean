import RouteCompiler.Visitor.Rule

/-!
Literals between single quotes, as a reader takes them that lets a backslash stand for the character
behind it. A text whose quotes are escaped, but not its backslashes, is read to its end and no
further if every run of backslashes before a quote or at the end can be taken in pairs. An odd run
uses up the backslash of the quote, or the closing quote itself.
-/

namespace RouteCompiler.Text

/-- What stands behind the quote that closes a literal. The flag says that the next character counts
as it is. -/
def behindLiteral (asItIs : Bool) : List Char → Option (List Char)
  | [] => none
  | c :: cs =>
    if asItIs then behindLiteral false cs
    else if c = '\\' then behindLiteral true cs
    else if c = '\'' then some cs
    else behindLiteral false cs

/-- The text with a backslash before every quote. -/
def quotesEscaped (cs : List Char) : List Char :=
  cs.flatMap fun c => if c = '\'' then ['\\', '\''] else [c]

/-- The backslashes that a text ends with. -/
def trailingBackslashes (cs : List Char) : Nat := (cs.reverse.takeWhile (· = '\\')).length

/-- Every run of backslashes before a quote or at the end is even. -/
def PairsBackslashes (cs : List Char) : Prop :=
  ∀ front back, cs = front ++ back → (back = [] ∨ back.head? = some '\'') →
    trailingBackslashes front % 2 = 0

/-- How the reader comes through a text whose quotes are escaped: whether it takes the next
character as it is, unless the literal has ended before. -/
def through (asItIs : Bool) : List Char → Option Bool
  | [] => some asItIs
  | c :: cs =>
    if c = '\\' then through (!asItIs) cs
    else if c = '\'' ∧ asItIs = true then none
    else through false cs

/-! ## Coming through a text -/

theorem length_behindLiteral {b : Bool} {cs rest : List Char} (h : behindLiteral b cs = some rest) :
    rest.length < cs.length := by
  induction cs generalizing b with
  | nil => cases h
  | cons c cs ih =>
    rw [behindLiteral] at h
    split at h
    · exact Nat.lt_succ_of_lt (ih h)
    · split at h
      · exact Nat.lt_succ_of_lt (ih h)
      · split at h
        · rw [Option.some.inj h]
          exact Nat.lt_succ_self _
        · exact Nat.lt_succ_of_lt (ih h)

/-- The literal of an escaped text ends where it should if the reader comes through the text and
takes the closing quote for one. -/
theorem behindLiteral_quotesEscaped {b : Bool} {cs rest : List Char} :
    behindLiteral b (quotesEscaped cs ++ '\'' :: rest) = some rest ↔ through b cs = some false := by
  induction cs generalizing b with
  | nil =>
    cases b with
    | false => simp [quotesEscaped, behindLiteral, through]
    | true =>
      -- the closing quote is taken as it is, and another one is behind it or nowhere
      have hlong : behindLiteral false rest ≠ some rest := fun h =>
        Nat.lt_irrefl _ (length_behindLiteral h)
      simpa [quotesEscaped, behindLiteral, through] using hlong
  | cons c cs ih =>
    by_cases hslash : c = '\\'
    · have hread : behindLiteral b (quotesEscaped (c :: cs) ++ '\'' :: rest) =
          behindLiteral (!b) (quotesEscaped cs ++ '\'' :: rest) := by
        cases b <;> simp [quotesEscaped, behindLiteral, hslash]
      rw [hread, ih, through, if_pos hslash]
    by_cases hquote : c = '\''
    · cases b with
      | false =>
        have hread : behindLiteral false (quotesEscaped (c :: cs) ++ '\'' :: rest) =
            behindLiteral false (quotesEscaped cs ++ '\'' :: rest) := by
          simp [quotesEscaped, behindLiteral, hquote]
        rw [hread, ih, through, if_neg hslash, if_neg (by simp)]
      | true =>
        have hread : behindLiteral true (quotesEscaped (c :: cs) ++ '\'' :: rest) =
            some (quotesEscaped cs ++ '\'' :: rest) := by
          simp [quotesEscaped, behindLiteral, hquote]
        have hlong : quotesEscaped cs ++ '\'' :: rest ≠ rest := by
          intro h
          have hlength := congrArg List.length h
          rw [List.length_append, List.length_cons] at hlength
          omega
        rw [hread, through, if_neg hslash, if_pos ⟨hquote, rfl⟩]
        simpa using hlong
    · have hread : behindLiteral b (quotesEscaped (c :: cs) ++ '\'' :: rest) =
          behindLiteral false (quotesEscaped cs ++ '\'' :: rest) := by
        cases b <;> simp [quotesEscaped, behindLiteral, hslash, hquote]
      rw [hread, ih, through, if_neg hslash, if_neg fun h => hquote h.1]

theorem through_append (b : Bool) (cs ds : List Char) :
    through b (cs ++ ds) = (through b cs).bind fun b => through b ds := by
  induction cs generalizing b with
  | nil => rfl
  | cons c cs ih =>
    rw [List.cons_append, through, through]
    split
    · exact ih _
    · split
      · rfl
      · exact ih _

/-! ## Runs of backslashes -/

theorem trailingBackslashes_append_singleton (cs : List Char) (c : Char) :
    trailingBackslashes (cs ++ [c]) = if c = '\\' then trailingBackslashes cs + 1 else 0 := by
  rw [trailingBackslashes, List.reverse_append, List.reverse_singleton, List.singleton_append,
    List.takeWhile_cons]
  split
  next h => simp_all [trailingBackslashes]
  next h => simp_all

theorem forall_append_cons {c : Char} {cs : List Char} {P : List Char → List Char → Prop} :
    (∀ front back, c :: cs = front ++ back → P front back) ↔
      P [] (c :: cs) ∧ ∀ front back, cs = front ++ back → P (c :: front) back := by
  constructor
  · intro h
    exact ⟨h [] _ rfl, fun front back hcs => h (c :: front) back (by rw [hcs]; rfl)⟩
  · rintro ⟨hnil, hcons⟩ front back hcs
    cases front with
    | nil =>
      rw [List.nil_append] at hcs
      exact hcs ▸ hnil
    | cons d front =>
      obtain ⟨rfl, htail⟩ := List.cons.inj hcs
      exact hcons front back htail

/-- The flag of the reader is the parity of the backslashes it has just come through. -/
theorem through_of_trailingBackslashes (before cs : List Char) :
    through (decide (trailingBackslashes before % 2 = 1)) cs = some false ↔
      ∀ front back, cs = front ++ back → (back = [] ∨ back.head? = some '\'') →
        trailingBackslashes (before ++ front) % 2 = 0 := by
  induction cs generalizing before with
  | nil =>
    simp only [through, List.nil_eq, List.append_eq_nil_iff, and_imp]
    constructor
    · rintro h front back rfl rfl -
      have hodd : ¬ trailingBackslashes before % 2 = 1 := by simpa using h
      rw [List.append_nil]
      omega
    · intro h
      have heven := h [] [] rfl rfl (.inl rfl)
      rw [List.append_nil] at heven
      simp [heven]
  | cons c cs ih =>
    have hhere : ((c :: cs) = [] ∨ (c :: cs).head? = some '\'') ↔ c = '\'' := by simp
    have ih := ih (before ++ [c])
    simp only [List.append_assoc, List.singleton_append] at ih
    rw [trailingBackslashes_append_singleton] at ih
    rw [forall_append_cons, hhere, List.append_nil, ← ih, through]
    by_cases hslash : c = '\\'
    · have hquote : ¬ c = '\'' := by
        rw [hslash]
        decide
      have hflip : (!decide (trailingBackslashes before % 2 = 1)) =
          decide ((trailingBackslashes before + 1) % 2 = 1) := by
        rw [← decide_not]
        exact decide_eq_decide.2 (by omega)
      rw [if_pos hslash, if_pos hslash, hflip]
      simp [hquote]
    · rw [if_neg hslash, if_neg hslash]
      by_cases hquote : c = '\''
      · by_cases hodd : trailingBackslashes before % 2 = 1
        · simp [hquote, hodd]
        · have heven : trailingBackslashes before % 2 = 0 := by omega
          simp [heven]
      · simp [hquote]

/-- The reader comes through a text exactly if its backslashes are in pairs where it matters. -/
theorem through_iff_pairsBackslashes (cs : List Char) :
    through false cs = some false ↔ PairsBackslashes cs :=
  through_of_trailingBackslashes [] cs

end RouteCompiler.Text
