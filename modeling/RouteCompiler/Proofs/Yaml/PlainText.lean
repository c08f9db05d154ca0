import RouteCompiler.Proofs.Yaml.Quoted
import RouteCompiler.Yaml.Lexeme.Plain
import RouteCompiler.Yaml.Written

/-!
Plain text reads back, word by word: a word has no mark that would end it, and the gap behind it is
read as the spaces it stands for, whether the line was broken there or not. The text ends where the
next line is not indented far enough.
-/

namespace RouteCompiler.Yaml

open Written (spaces)

/-! ## Marks -/

theorem hasInnerMark_cons {p c : Char} {r : List Char}
    (h : Style.hasInnerMark p (c :: r) = false) :
    ¬ (c = ':' ∧ endsOr isGap r = true) ∧ ¬ (c = '#' ∧ isGap p = true) ∧
      Style.hasInnerMark c r = false := by
  simp only [Style.hasInnerMark, Bool.or_eq_false_iff, Bool.and_eq_false_iff,
    decide_eq_false_iff_not] at h
  refine ⟨?_, ?_, h.2⟩
  · rintro ⟨hc, hr⟩
    obtain h | h := h.1.1
    · exact h hc
    · rw [h] at hr
      cases hr
  · rintro ⟨hc, hp⟩
    obtain h | h := h.1.2
    · exact h hc
    · rw [h] at hp
      cases hp

theorem hasInnerMark_append {p x : Char} {a b : List Char}
    (h : Style.hasInnerMark p (a ++ x :: b) = false) : Style.hasInnerMark x b = false := by
  induction a generalizing p with
  | nil => exact (hasInnerMark_cons h).2.2
  | cons c a ih => exact ih (hasInnerMark_cons h).2.2

/-- A word of plain text: no spaces, and only characters that are shown. -/
def IsWord (w : List Char) : Prop := ∀ c ∈ w, Style.isShownAscii c = true ∧ c ≠ ' '

theorem IsWord.isGap_eq {w : List Char} (h : IsWord w) {c : Char} (hc : c ∈ w) :
    isGap c = false := by
  rw [isGap_of_isShownAscii (h c hc).1, decide_eq_false (h c hc).2]

/-- A word that ends at a gap has none of the marks that would end it earlier. -/
theorem plainLength_word {w rest : List Char} (hw : IsWord w) {p : Char}
    (h : Style.hasInnerMark p (w ++ rest) = false) (hr : endsOr isGap rest = true)
    {z : Char} {zs : List Char} (hz : isGap z = true) :
    plainLength false (w ++ z :: zs) = w.length := by
  induction w generalizing p with
  | nil =>
    have hs : plainStops false z zs = true := by simp [plainStops, hz]
    rw [List.nil_append, plainLength, if_pos hs]
    rfl
  | cons c w ih =>
    obtain ⟨hcolon, -, ht⟩ := hasInnerMark_cons h
    have hs : plainStops false c (w ++ z :: zs) = false := by
      have hc := hw.isGap_eq List.mem_cons_self
      cases w with
      | nil =>
        have hne : c ≠ ':' := fun e => hcolon ⟨e, hr⟩
        simp [plainStops, hc, hne]
      | cons d w =>
        have hd := hw.isGap_eq (List.mem_cons_of_mem c List.mem_cons_self)
        simp [plainStops, hc, endsOr, hd]
    rw [List.cons_append, plainLength, if_neg (by rw [hs]; decide),
      ih (fun d hd => hw d (List.mem_cons_of_mem c hd)) ht]
    rfl

/-! ## Gaps -/

/-- The text is at its end, or starts with neither a blank nor a line end. -/
def EndsOrSolid (cs : List Char) : Prop := cs = [] ∨ StartsSolid cs

theorem gapBreaks_spaces {cs : List Char} (h : EndsOrSolid cs) (column n : Nat) :
    gapBreaks column (spaces n ++ cs) = ⟨[], some (column + n), false, cs⟩ := by
  induction n generalizing column with
  | zero =>
    obtain rfl | h := h
    · rw [spaces, List.replicate_zero, List.nil_append, gapBreaks]
      rfl
    · obtain ⟨c, r, rfl, hc⟩ := h
      have hs : c ≠ ' ' := by
        rintro rfl
        cases hc
      have hl := (StartsSolid.cons hc r).lineEnd?_eq
      rw [spaces, List.replicate_zero, List.nil_append, gapBreaks]
      · split
        · rfl
        · rename_i heq
          rw [hl] at heq
          cases heq
      · rintro ⟨⟩
      · rintro r' heq
        cases heq
        exact hs rfl
  | succ n ih =>
    have hs : spaces (n + 1) ++ cs = ' ' :: (spaces n ++ cs) := rfl
    rw [hs, gapBreaks, ih, Nat.add_assoc, Nat.add_comm 1]

theorem span_spaces {cs : List Char} (h : EndsOrSolid cs) (n : Nat) :
    (spaces n ++ cs).takeWhile (· = ' ') = spaces n ∧
      (spaces n ++ cs).dropWhile (· = ' ') = cs := by
  induction n with
  | zero =>
    obtain rfl | ⟨c, r, rfl, hc⟩ := h
    · exact ⟨rfl, rfl⟩
    · have hs : c ≠ ' ' := by
        rintro rfl
        cases hc
      simp [spaces, hs]
  | succ n ih =>
    have hs : spaces (n + 1) ++ cs = ' ' :: (spaces n ++ cs) := rfl
    rw [hs, List.takeWhile_cons_of_pos (by simp), List.dropWhile_cons_of_pos (by simp), ih.1, ih.2]
    exact ⟨rfl, rfl⟩

theorem gap_spaces {cs : List Char} (h : StartsSolid cs) (n : Nat) :
    gap (spaces n ++ cs) = ⟨spaces n, none, false, cs⟩ := by
  have hs := span_spaces (.inr h) n
  rw [gap]
  dsimp only
  rw [hs.1, hs.2, h.lineEnd?_eq]

theorem gap_line {cs : List Char} (h : EndsOrSolid cs) {n : Nat}
    (hn : atSeparator (spaces n ++ cs) = false) :
    gap ('\n' :: (spaces n ++ cs)) = ⟨[' '], some n, false, cs⟩ := by
  rw [gap]
  dsimp only
  rw [List.dropWhile_cons_of_neg (by decide), lineEnd?_lineFeed]
  simp [hn, gapBreaks_spaces h]

/-! ## What is written -/

section
variable {indent : Nat}

theorem plain_solid {c : Char} (hc : c ≠ ' ') (r : List Char) (column : Nat) (previous : Char) :
    Written.plain indent column previous (c :: r) =
      c :: Written.plain indent (column + 1) c r := by
  simp [Written.plain, hc]

theorem plain_word (indent : Nat) {w : List Char} (hw : IsWord w) (rest : List Char)
    (column : Nat) (previous : Char) : ∃ column' previous',
      Written.plain indent column previous (w ++ rest) =
        w ++ Written.plain indent column' previous' rest := by
  induction w generalizing column previous with
  | nil => exact ⟨column, previous, rfl⟩
  | cons c w ih =>
    obtain ⟨column', previous', h⟩ :=
      ih (fun d hd => hw d (List.mem_cons_of_mem c hd)) (column + 1) c
    refine ⟨column', previous', ?_⟩
    have hs := (hw c List.mem_cons_self).2
    rw [List.cons_append, plain_solid hs, h]
    rfl

theorem plain_spaces (n column : Nat) (rest : List Char) :
    Written.plain indent column ' ' (spaces n ++ rest) =
      spaces n ++ Written.plain indent (column + n) ' ' rest := by
  induction n generalizing column with
  | zero => rfl
  | succ n ih =>
    have hs (r : List Char) : spaces (n + 1) ++ r = ' ' :: (spaces n ++ r) := rfl
    rw [hs, hs, Written.plain]
    simp [ih, Nat.add_assoc, Nat.add_comm 1]

/-- A gap is written as it is, or, if it is one space, as a broken line. -/
theorem plain_gap (indent n column : Nat) (previous d : Char) (rest : List Char) :
    (∃ column', Written.plain indent column previous (spaces (n + 1) ++ d :: rest) =
      spaces (n + 1) ++ Written.plain indent column' ' ' (d :: rest)) ∨
    (n = 0 ∧ Written.plain indent column previous (spaces (n + 1) ++ d :: rest) =
      '\n' :: (spaces indent ++ Written.plain indent indent ' ' (d :: rest))) := by
  have hs : spaces (n + 1) ++ d :: rest = ' ' :: (spaces n ++ d :: rest) := rfl
  rw [hs, Written.plain]
  split
  · rename_i hb
    cases n with
    | zero => exact .inr ⟨rfl, rfl⟩
    | succ n => simp [spaces, List.replicate_succ] at hb
  · exact .inl ⟨_, by rw [plain_spaces]; rfl⟩

end

/-! ## What is read -/

section
variable {indent n : Nat} {least : Int} {tail : List Char}

theorem plainRuns_word {c : Char} {w rest z : List Char} (hw : IsWord (c :: w)) (hc : c ≠ '#')
    {p : Char} (h : Style.hasInnerMark p (c :: w ++ rest) = false)
    (hr : endsOr isGap rest = true) (hz : ∃ x xs, z = x :: xs ∧ isGap x = true)
    {text pending : List Char} {crossed : Bool} {g : Gap} (hg : gap z = g) :
    plainRuns false least text pending crossed (c :: w ++ z) =
      if g.separated || g.text.isEmpty || g.rest.head? = some '#' ||
          g.column.any (fun k : Nat => (k : Int) < least) then
        ⟨text ++ pending ++ c :: w, g.column.isSome, g.rest⟩
      else plainRuns false least (text ++ pending ++ c :: w) g.text g.column.isSome g.rest := by
  obtain ⟨x, xs, rfl, hx⟩ := hz
  have hl : plainLength false (c :: w ++ x :: xs) = (c :: w).length := plainLength_word hw h hr hx
  have hs : plainStops false c (w ++ x :: xs) = false := by
    rw [List.cons_append, plainLength] at hl
    by_cases hs : plainStops false c (w ++ x :: xs) = true
    · rw [if_pos hs] at hl
      simp at hl
    · simpa using hs
  have hl' : plainLength false (w ++ x :: xs) = w.length := by
    rw [List.cons_append, plainLength, hs] at hl
    simpa using hl
  rw [List.cons_append, plainRuns]
  simp only [hc, hs, hl', decide_false, Bool.or_false, Bool.false_eq_true, if_false,
    List.take_left', List.drop_left', hg, Bool.not_false, Bool.true_and, List.append_assoc]
  cases g.column <;> rfl

/-- The last word is followed by a line that is not indented far enough. -/
theorem plainRuns_last {c : Char} {w : List Char} (hw : IsWord (c :: w)) (hc : c ≠ '#') {p : Char}
    (h : Style.hasInnerMark p (c :: w) = false) (ht : EndsOrSolid tail)
    (hsep : atSeparator (spaces n ++ tail) = false) (hn : (n : Int) < least)
    {text pending : List Char} {crossed : Bool} :
    plainRuns false least text pending crossed (c :: w ++ '\n' :: (spaces n ++ tail)) =
      ⟨text ++ pending ++ c :: w, true, tail⟩ := by
  have h' : Style.hasInnerMark p (c :: w ++ []) = false := by rwa [List.append_nil]
  rw [plainRuns_word hw hc h' rfl ⟨_, _, rfl, rfl⟩ (gap_line ht hsep)]
  simp [hn]

theorem plainRuns_next {c : Char} {w rest : List Char} (hw : IsWord (c :: w)) (hc : c ≠ '#')
    {p : Char} (h : Style.hasInnerMark p (c :: w ++ ' ' :: rest) = false) {z : List Char}
    (hz : ∃ x xs, z = x :: xs ∧ isGap x = true) {m : Nat} {column : Option Nat} {cs : List Char}
    (hg : gap z = ⟨spaces (m + 1), column, false, cs⟩) (hcs : cs.head? ≠ some '#')
    (hcol : ∀ k ∈ column, least ≤ (k : Int)) {text pending : List Char} {crossed : Bool} :
    plainRuns false least text pending crossed (c :: w ++ z) =
      plainRuns false least (text ++ pending ++ c :: w) (spaces (m + 1)) column.isSome cs := by
  rw [plainRuns_word hw hc h rfl hz hg]
  have hs : (spaces (m + 1)).isEmpty = false := rfl
  have hk : (column.any fun k : Nat => decide ((k : Int) < least)) = false := by
    cases column with
    | none => rfl
    | some k => simpa using hcol k rfl
  simp [hs, hcs, hk]

/-- Text that does not end in a space is a word, and perhaps a gap with more text behind it. -/
theorem exists_words {cs : List Char} (hlast : cs.getLast? ≠ some ' ') :
    ∃ w rest, cs = w ++ rest ∧ (∀ c ∈ w, c ≠ ' ') ∧
      (rest = [] ∨ ∃ m d r, rest = spaces (m + 1) ++ d :: r ∧ d ≠ ' ') := by
  induction cs with
  | nil => exact ⟨[], [], rfl, by simp, .inl rfl⟩
  | cons c cs ih =>
    have hl : cs.getLast? ≠ some ' ' := by
      intro e
      cases cs with
      | nil => cases e
      | cons d cs => exact hlast (by rw [List.getLast?_cons_cons, e])
    obtain ⟨w, rest, rfl, hw, hrest⟩ := ih hl
    by_cases hc : c = ' '
    · subst hc
      refine ⟨[], _, rfl, by simp, .inr ?_⟩
      cases w with
      | cons d w => exact ⟨0, d, w ++ rest, rfl, hw d List.mem_cons_self⟩
      | nil =>
        obtain rfl | ⟨m, d, r, rfl, hd⟩ := hrest
        · exact absurd rfl hlast
        · exact ⟨m + 1, d, r, rfl, hd⟩
    · refine ⟨c :: w, rest, rfl, ?_, hrest⟩
      intro d hd
      obtain rfl | hd := List.mem_cons.1 hd
      · exact hc
      · exact hw d hd

/-- Text behind `p` that a plain scalar can hold: it starts with a word and ends with one. -/
structure IsPlainRest (p c : Char) (r : List Char) : Prop where
  shown : ∀ x ∈ c :: r, Style.isShownAscii x = true
  notSpace : c ≠ ' '
  notHash : c ≠ '#'
  last : (c :: r).getLast? ≠ some ' '
  noMark : Style.hasInnerMark p (c :: r) = false

namespace IsPlainRest

variable {p c d : Char} {r s : List Char} {m : Nat}

/-- Behind a word and a gap the text goes on in the same way. -/
theorem next {w : List Char} (h : IsPlainRest p c (w ++ (spaces (m + 1) ++ d :: s)))
    (hd : d ≠ ' ') : IsPlainRest ' ' d s := by
  have hgap : c :: (w ++ (spaces (m + 1) ++ d :: s)) = (c :: w ++ spaces m) ++ ' ' :: d :: s := by
    rw [spaces, List.replicate_succ']
    simp [spaces]
  obtain ⟨hall, -, -, hlast, hmark⟩ := h
  rw [hgap] at hall hlast hmark
  have hnext := hasInnerMark_append hmark
  refine ⟨?_, hd, fun e => (hasInnerMark_cons hnext).2.1 ⟨e, rfl⟩, ?_, hnext⟩
  · intro x hx
    exact hall x (List.mem_append_right _ (List.mem_cons_of_mem ' ' hx))
  · intro e
    apply hlast
    rw [List.getLast?_append, List.getLast?_cons_cons, e]
    rfl

theorem words (h : IsPlainRest p c r) : ∃ w rest, r = w ++ rest ∧ IsWord (c :: w) ∧
    (rest = [] ∨ ∃ m d s, rest = spaces (m + 1) ++ d :: s ∧ IsPlainRest ' ' d s) := by
  obtain ⟨w, rest, hr, hw, hrest⟩ := exists_words h.last
  cases w with
  | nil =>
    obtain rfl | ⟨m, d, s, rfl, -⟩ := hrest
    · cases hr
    · cases hr
      exact absurd rfl h.notSpace
  | cons c' w =>
    cases hr
    refine ⟨w, rest, rfl, ?_, ?_⟩
    · intro x hx
      exact ⟨h.shown x (List.mem_append_left rest hx), hw x hx⟩
    · obtain rfl | ⟨m, d, s, rfl, hd⟩ := hrest
      · exact .inl rfl
      · exact .inr ⟨m, d, s, rfl, h.next hd⟩

theorem startsSolid (h : IsPlainRest p c r) (indent column : Nat) (previous : Char) :
    StartsSolid (Written.plain indent column previous (c :: r)) := by
  rw [plain_solid h.notSpace]
  refine .cons ?_ _
  rw [isGap_of_isShownAscii (h.shown c List.mem_cons_self), decide_eq_false h.notSpace]

theorem head?_ne (h : IsPlainRest p c r) (indent column : Nat) (previous : Char) (cs : List Char) :
    (Written.plain indent column previous (c :: r) ++ cs).head? ≠ some '#' := by
  rw [plain_solid h.notSpace]
  simp [h.notHash]

end IsPlainRest

/-- Plain text is read back. -/
theorem plainRuns_plain (hindent : 0 < indent) (hi : least ≤ (indent : Int)) (ht : EndsOrSolid tail)
    (hsep : atSeparator (spaces n ++ tail) = false) (hn : (n : Int) < least) {p c : Char}
    {r : List Char} (h : IsPlainRest p c r) (column : Nat) (previous : Char)
    (text pending : List Char) (crossed : Bool) :
    plainRuns false least text pending crossed
        (Written.plain indent column previous (c :: r) ++ '\n' :: (spaces n ++ tail)) =
      ⟨text ++ pending ++ c :: r, true, tail⟩ := by
  obtain ⟨w, rest, rfl, hword, hrest⟩ := h.words
  obtain ⟨column', previous', hwritten⟩ := plain_word indent hword rest column previous
  have hmark : Style.hasInnerMark p (c :: w ++ rest) = false := h.noMark
  rw [← List.cons_append, hwritten, List.append_assoc]
  obtain rfl | ⟨m, d, s, rfl, hd⟩ := hrest
  · rw [List.append_nil] at hmark ⊢
    exact plainRuns_last hword h.notHash hmark ht hsep hn
  have ih (column : Nat) (text pending : List Char) (crossed : Bool) :=
    plainRuns_plain hindent hi ht hsep hn hd column ' ' text pending crossed
  obtain ⟨column'', hgap⟩ | ⟨rfl, hgap⟩ := plain_gap indent m column' previous' d s
  · have hsolid := (hd.startsSolid indent column'' ' ').append ('\n' :: (spaces n ++ tail))
    have hg := gap_spaces hsolid (m + 1)
    have hz : ∃ x xs, spaces (m + 1) ++ (Written.plain indent column'' ' ' (d :: s) ++
        '\n' :: (spaces n ++ tail)) = x :: xs ∧ isGap x = true := ⟨' ', _, rfl, rfl⟩
    rw [hgap, List.append_assoc, plainRuns_next hword h.notHash hmark hz hg
      (hd.head?_ne indent column'' ' ' _) (by simp), ih]
    simp only [List.append_assoc]
  · -- the line was broken at a single space
    have hsolid := (hd.startsSolid indent indent ' ').append ('\n' :: (spaces n ++ tail))
    have hg := gap_line (.inr hsolid) (atSeparator_spaces hindent _)
    have hz : '\n' :: (spaces indent ++ Written.plain indent indent ' ' (d :: s)) ++
        '\n' :: (spaces n ++ tail) = '\n' :: (spaces indent ++
          (Written.plain indent indent ' ' (d :: s) ++ '\n' :: (spaces n ++ tail))) := by
      simp
    rw [hgap, hz, plainRuns_next (m := 0) hword h.notHash hmark ⟨'\n', _, rfl, rfl⟩ hg
      (hd.head?_ne indent indent ' ' _) (by simpa using hi), ih]
    simp only [List.append_assoc]
termination_by r.length

end

end RouteCompiler.Yaml
