import RouteCompiler.Proofs.Yaml.Quoted
import RouteCompiler.Yaml.Written

/-!
Text between single quotes. A space at which the line was broken and a run of line ends, which has
one line end more than the text, both read back.
-/

namespace RouteCompiler.Yaml

open Written (spaces folded)

theorem hasBlankAtBreak_cons {p c : Char} {r : List Char}
    (h : Style.hasBlankAtBreak (p :: c :: r) = false) :
    Style.hasBlankAtBreak (c :: r) = false ∧ ¬ (p = ' ' ∧ c = '\n') ∧ ¬ (p = '\n' ∧ c = ' ') := by
  by_cases h₁ : p = ' ' ∧ c = '\n'
  · obtain ⟨rfl, rfl⟩ := h₁
    simp [Style.hasBlankAtBreak] at h
  by_cases h₂ : p = '\n' ∧ c = ' '
  · obtain ⟨rfl, rfl⟩ := h₂
    simp [Style.hasBlankAtBreak] at h
  refine ⟨?_, h₁, h₂⟩
  rw [Style.hasBlankAtBreak] at h
  · exact h
  · rintro _ rfl hc
    cases hc
    exact h₁ ⟨rfl, rfl⟩
  · rintro _ rfl hc
    cases hc
    exact h₂ ⟨rfl, rfl⟩

theorem hasBlankAtBreak_dropWhile {r : List Char}
    (h : Style.hasBlankAtBreak ('\n' :: r) = false) :
    Style.hasBlankAtBreak ('\n' :: r.dropWhile (· = '\n')) = false := by
  induction r with
  | nil => exact h
  | cons c r ih =>
    by_cases hc : c = '\n'
    · subst hc
      rw [List.dropWhile_cons_of_pos (by simp)]
      exact ih (hasBlankAtBreak_cons h).1
    · rw [List.dropWhile_cons_of_neg (by simpa using hc)]
      exact h

theorem isGap_of_isPlainAscii {c : Char} (h : isPlainAscii c = true) (hs : c ≠ ' ')
    (hn : c ≠ '\n') : isGap c = false := by
  have hc : Style.isShownAscii c = true := by simpa [isPlainAscii, hn] using h
  rw [isGap_of_isShownAscii hc, decide_eq_false hs]

variable {indent column : Nat} {previous : Char} {tail : List Char}

/-! ## What is written -/

theorem folded_char {c : Char} (hs : c ≠ ' ') (hn : c ≠ '\n') (hq : c ≠ '\'') (r : List Char) :
    folded indent column previous (c :: r) = c :: folded indent (column + 1) c r := by
  simp [folded, hs, hn, hq]

theorem folded_quote (r : List Char) : folded indent column previous ('\'' :: r) =
    '\'' :: '\'' :: folded indent (column + 2) '\'' r := by
  simp [folded]

theorem folded_solid {c : Char} (hc : isPlainAscii c = true) (hs : c ≠ ' ') (hn : c ≠ '\n')
    (r : List Char) : StartsSolid (folded indent column previous (c :: r)) := by
  by_cases hq : c = '\''
  · subst hq
    rw [folded_quote]
    exact .cons rfl _
  · rw [folded_char hs hn hq]
    exact .cons (isGap_of_isPlainAscii hc hs hn) _

theorem lineEnd?_folded {r : List Char} (h : Style.hasBlankAtBreak (' ' :: r) = false)
    (ha : ∀ c ∈ r, isPlainAscii c = true) :
    lineEnd? ((folded indent column ' ' r ++ '\'' :: tail).dropWhile isSpaceOrTab) = none := by
  induction r generalizing column with
  | nil => rfl
  | cons c r ih =>
    obtain ⟨hr, hn, -⟩ := hasBlankAtBreak_cons h
    by_cases hs : c = ' '
    · subst hs
      have hf : folded indent column ' ' (' ' :: r) = ' ' :: folded indent (column + 1) ' ' r := by
        simp [folded]
      rw [hf, List.cons_append, List.dropWhile_cons_of_pos rfl]
      exact ih hr fun d hd => ha d (List.mem_cons_of_mem _ hd)
    · have hc : StartsSolid (folded indent column ' ' (c :: r)) :=
        folded_solid (ha c List.mem_cons_self) hs (fun e => hn ⟨rfl, e⟩) r
      rw [(hc.append _).dropWhile_eq, (hc.append _).lineEnd?_eq]

/-- What is written behind a line end of the text. -/
def afterBreak (indent : Nat) (r : List Char) : List Char :=
  if r.head? = some '\n' then folded indent 0 '\n' r
  else spaces indent ++ folded indent indent '\n' r

theorem folded_lineFeed (hp : previous ≠ '\n') (r : List Char) :
    folded indent column previous ('\n' :: r) = '\n' :: '\n' :: afterBreak indent r := by
  simp [folded, afterBreak, hp]

theorem afterBreak_lineFeed (r : List Char) :
    afterBreak indent ('\n' :: r) = '\n' :: afterBreak indent r := by
  simp [folded, afterBreak]

/-! ## What is read -/

/-- All further line ends of a run are read at once. -/
theorem quotedBreaks_afterBreak (hi : 0 < indent) (tail : List Char) {r : List Char}
    (h : Style.hasBlankAtBreak ('\n' :: r) = false) (ha : ∀ c ∈ r, isPlainAscii c = true) :
    quotedBreaks (afterBreak indent r ++ '\'' :: tail) = .ok (r.takeWhile (· = '\n'),
      folded indent indent '\n' (r.dropWhile (· = '\n')) ++ '\'' :: tail) := by
  induction r with
  | nil =>
    have he : afterBreak indent [] = spaces indent := by simp [afterBreak, folded]
    rw [he]
    exact quotedBreaks_indented hi (.cons rfl _)
  | cons c r ih =>
    obtain ⟨hr, -, hs⟩ := hasBlankAtBreak_cons h
    by_cases hn : c = '\n'
    · subst hn
      rw [afterBreak_lineFeed, List.cons_append, List.takeWhile_cons_of_pos (by simp),
        List.dropWhile_cons_of_pos (by simp)]
      exact quotedBreaks_lineFeed (ih hr fun d hd => ha d (List.mem_cons_of_mem _ hd))
    · have hc : StartsSolid (folded indent indent '\n' (c :: r)) :=
        folded_solid (ha c List.mem_cons_self) (fun e => hs ⟨rfl, e⟩) hn r
      rw [List.takeWhile_cons_of_neg (by simpa using hn), List.dropWhile_cons_of_neg
        (by simpa using hn), afterBreak, if_neg (by simpa using hn), List.append_assoc]
      exact quotedBreaks_indented hi (hc.append _)

theorem quotedRest_close (ht : tail.head? ≠ some '\'') (acc : Points) :
    quotedRest false ('\'' :: tail) acc = .ok (acc, tail) := by
  rw [quotedRest.eq_def]
  cases tail with
  | nil => simp [isGap, isSpaceOrTab, isBreak]
  | cons c r =>
    have hc : c ≠ '\'' := fun e => ht (by rw [e]; rfl)
    simp [isGap, isSpaceOrTab, isBreak, hc]

theorem quotedRest_quote (cs : List Char) (acc : Points) :
    quotedRest false ('\'' :: '\'' :: cs) acc = quotedRest false cs (acc ++ [.char '\'']) := by
  rw [quotedRest.eq_def]
  simp [isGap, isSpaceOrTab, isBreak]

/-- A space reads as itself, whether the line was broken there or not. -/
theorem quotedRest_foldedSpace (hi : 0 < indent) (tail : List Char) (column : Nat) (previous : Char)
    {r : List Char} (h : Style.hasBlankAtBreak (' ' :: r) = false)
    (ha : ∀ c ∈ r, isPlainAscii c = true) (acc : Points) :
    ∃ column', quotedRest false (folded indent column previous (' ' :: r) ++ '\'' :: tail) acc =
      quotedRest false (folded indent column' ' ' r ++ '\'' :: tail) (acc ++ [.char ' ']) := by
  by_cases hb : previous ≠ ' ' && r.head?.any (· ≠ ' ') && Written.width < column
  · have hf : folded indent column previous (' ' :: r) =
        '\n' :: (spaces indent ++ folded indent indent ' ' r) := by
      rw [folded]
      simp only [hb, if_true]
      rfl
    have hsolid : StartsSolid (folded indent indent ' ' r ++ '\'' :: tail) := by
      cases r with
      | nil => simp at hb
      | cons d r =>
        simp only [List.head?_cons, Option.any_some, Bool.and_eq_true, decide_eq_true_eq] at hb
        exact (folded_solid (ha d List.mem_cons_self) hb.1.2
          (fun e => (hasBlankAtBreak_cons h).2.1 ⟨rfl, e⟩) r).append _
    refine ⟨indent, ?_⟩
    rw [hf, List.cons_append, List.append_assoc,
      quotedRest_lineFeed (quotedBreaks_indented hi hsolid) (by simp)]
    rfl
  · have hf : folded indent column previous (' ' :: r) =
        ' ' :: folded indent (column + 1) ' ' r := by
      rw [folded]
      simp only [if_neg hb, if_true]
    refine ⟨column + 1, ?_⟩
    rw [hf, List.cons_append, quotedRest_space (lineEnd?_folded h ha)]

theorem quotedRest_foldedBreaks (hi : 0 < indent) (tail : List Char) (column : Nat)
    (hp : previous ≠ '\n') {r : List Char} (h : Style.hasBlankAtBreak ('\n' :: r) = false)
    (ha : ∀ c ∈ r, isPlainAscii c = true) (acc : Points) :
    quotedRest false (folded indent column previous ('\n' :: r) ++ '\'' :: tail) acc =
      quotedRest false (folded indent indent '\n' (r.dropWhile (· = '\n')) ++ '\'' :: tail)
        (acc ++ ('\n' :: r.takeWhile (· = '\n')).map .char) := by
  have hrun := quotedBreaks_lineFeed (quotedBreaks_afterBreak hi tail h ha)
  rw [folded_lineFeed hp, List.cons_append, List.cons_append, quotedRest_lineFeed hrun (by simp)]
  rfl

/-- Text between single quotes is read back. -/
theorem quotedRest_folded (hi : 0 < indent) (ht : tail.head? ≠ some '\'') (cs : List Char)
    (previous : Char) (column : Nat) (acc : Points)
    (hp : previous = '\n' → cs.head? ≠ some '\n')
    (h : Style.hasBlankAtBreak (previous :: cs) = false) (ha : ∀ c ∈ cs, isPlainAscii c = true) :
    quotedRest false (folded indent column previous cs ++ '\'' :: tail) acc =
      .ok (acc ++ cs.map .char, tail) := by
  match cs with
  | [] =>
    rw [folded, List.nil_append, List.map_nil, List.append_nil]
    exact quotedRest_close ht acc
  | c :: r =>
    have hr := (hasBlankAtBreak_cons h).1
    have har : ∀ d ∈ r, isPlainAscii d = true := fun d hd => ha d (List.mem_cons_of_mem _ hd)
    by_cases hs : c = ' '
    · subst hs
      obtain ⟨column', hread⟩ := quotedRest_foldedSpace hi tail column previous hr har acc
      rw [hread, quotedRest_folded hi ht r _ _ _ (fun e => absurd e (by decide)) hr har,
        List.append_assoc]
      rfl
    by_cases hn : c = '\n'
    · subst hn
      have hlen : (r.dropWhile (· = '\n')).length ≤ r.length := length_dropWhile_le _ _
      have hdrop : ∀ d ∈ r.dropWhile (· = '\n'), isPlainAscii d = true := fun d hd =>
        har d ((List.dropWhile_sublist _).subset hd)
      have hhead : (r.dropWhile (· = '\n')).head? ≠ some '\n' := by
        intro e
        have := List.head?_dropWhile_not (· = '\n') r
        rw [e] at this
        simp at this
      rw [quotedRest_foldedBreaks hi tail column (fun e => hp e rfl) hr har,
        quotedRest_folded hi ht _ '\n' indent _ (fun _ => hhead) (hasBlankAtBreak_dropWhile hr)
          hdrop, List.append_assoc, ← List.map_append, List.cons_append,
        List.takeWhile_append_dropWhile]
    by_cases hq : c = '\''
    · subst hq
      rw [folded_quote, List.cons_append, List.cons_append, quotedRest_quote,
        quotedRest_folded hi ht r _ _ _ (fun e => absurd e (by decide)) hr har, List.append_assoc]
      rfl
    · rw [folded_char hs hn hq, List.cons_append, quotedRest_char
        (isGap_of_isPlainAscii (ha c List.mem_cons_self) hs hn) (fun _ => hq)
        (fun e => absurd e (by decide)),
        quotedRest_folded hi ht r _ _ _ (fun e => absurd e hn) hr har, List.append_assoc]
      rfl
termination_by cs.length

end RouteCompiler.Yaml
