import RouteCompiler.Proofs.Yaml.Cursor
import RouteCompiler.Yaml.Lexeme.Quoted

/-!
Quoted scalars read back what was written. Spaces can be read one by one as long as no line end
comes behind them; a broken line is read as the space it was broken at, or, behind a backslash, as
nothing.
-/

namespace RouteCompiler.Yaml

open Written (spaces)

/-! ## Gaps -/

/-- The text does not start with a blank or a line end. -/
def StartsSolid (cs : List Char) : Prop := ∃ c r, cs = c :: r ∧ isGap c = false

namespace StartsSolid

variable {cs : List Char}

theorem cons {c : Char} (h : isGap c = false) (r : List Char) : StartsSolid (c :: r) :=
  ⟨c, r, rfl, h⟩

theorem append (h : StartsSolid cs) (t : List Char) : StartsSolid (cs ++ t) := by
  obtain ⟨c, r, rfl, hc⟩ := h
  exact ⟨c, r ++ t, rfl, hc⟩

theorem dropWhile_eq (h : StartsSolid cs) : cs.dropWhile isSpaceOrTab = cs := by
  obtain ⟨c, r, rfl, hc⟩ := h
  simp only [isGap, Bool.or_eq_false_iff] at hc
  simp [hc.1]

theorem lineEnd?_eq (h : StartsSolid cs) : lineEnd? cs = none := by
  obtain ⟨c, r, rfl, hc⟩ := h
  simp only [isGap, Bool.or_eq_false_iff] at hc
  exact lineEnd?_of_not_isBreak hc.2

end StartsSolid

theorem dropWhile_spaces (n : Nat) (cs : List Char) :
    (spaces n ++ cs).dropWhile isSpaceOrTab = cs.dropWhile isSpaceOrTab := by
  induction n with
  | zero => rfl
  | succ n ih =>
    rw [spaces, List.replicate_succ, List.cons_append, List.dropWhile_cons_of_pos rfl]
    exact ih

theorem atSeparator_of_head {c : Char} {r : List Char} (h : c ≠ '-') (h' : c ≠ '.') :
    atSeparator (c :: r) = false := by
  simp only [atSeparator]
  split
  · rename_i heq
    cases heq
    exact absurd rfl h
  · rename_i heq
    cases heq
    exact absurd rfl h'
  · rfl

theorem atSeparator_spaces {n : Nat} (hn : 0 < n) (cs : List Char) :
    atSeparator (spaces n ++ cs) = false := by
  cases n with
  | zero => cases hn
  | succ n => exact atSeparator_of_head (by decide) (by decide)

theorem quotedBreaks_indented {n : Nat} (hn : 0 < n) {cs : List Char} (h : StartsSolid cs) :
    quotedBreaks (spaces n ++ cs) = .ok ([], cs) := by
  rw [quotedBreaks]
  rw [atSeparator_spaces hn, dropWhile_spaces, h.dropWhile_eq]
  simp only [Bool.false_eq_true, if_false]
  split
  · rename_i heq
    rw [h.lineEnd?_eq] at heq
    cases heq
  · rfl

theorem quotedBreaks_lineFeed {cs bs r : List Char} (h : quotedBreaks cs = .ok (bs, r)) :
    quotedBreaks ('\n' :: cs) = .ok ('\n' :: bs, r) := by
  rw [quotedBreaks]
  rw [atSeparator_of_head (by decide) (by decide)]
  simp only [Bool.false_eq_true, if_false]
  split
  · rename_i b r' heq
    have hd : ('\n' :: cs).dropWhile isSpaceOrTab = '\n' :: cs := rfl
    rw [hd, lineEnd?_lineFeed] at heq
    cases heq
    rw [h]
    rfl
  · rename_i heq
    have hd : ('\n' :: cs).dropWhile isSpaceOrTab = '\n' :: cs := rfl
    rw [hd, lineEnd?_lineFeed] at heq
    cases heq

theorem length_quotedBreaks_le {cs t r : List Char} (h : quotedBreaks cs = .ok (t, r)) :
    r.length ≤ cs.length := by
  fun_induction quotedBreaks cs generalizing t with
  | case1 => cases h
  | case2 =>
    rename_i b r' heq ih
    cases hr : quotedBreaks r' with
    | error e =>
      rw [hr] at h
      cases h
    | ok p =>
      rw [hr] at h
      cases h
      exact Nat.le_trans (ih hr) (Nat.le_of_lt (Nat.lt_of_lt_of_le (length_of_lineEnd? heq)
        (length_dropWhile_le _ _)))
  | case3 cs =>
    simp only [Except.ok.injEq, Prod.mk.injEq] at h
    rw [← h.2]
    exact length_dropWhile_le _ _

/-! ## Single steps -/

variable {double : Bool} {acc : Points}

theorem quotedGap_blanks {cs : List Char} (h : lineEnd? (cs.dropWhile isSpaceOrTab) = none) :
    quotedGap cs = .ok (cs.takeWhile isSpaceOrTab, cs.dropWhile isSpaceOrTab) := by
  rw [quotedGap]
  simp only [h]

theorem quotedRest_gap {c : Char} {cs t r : List Char} (hc : isGap c = true)
    (h : quotedGap (c :: cs) = .ok (t, r)) (hl : r.length ≤ cs.length) (hr : r ≠ []) :
    quotedRest double (c :: cs) acc = quotedRest double r (acc ++ t.map .char) := by
  rw [quotedRest.eq_def]
  have hlt : r.length < cs.length + 1 := Nat.lt_succ_of_le hl
  have he : r.isEmpty = false := by simpa using hr
  simp [hc, h, bind, Except.bind, he, hlt]

theorem quotedRest_gap_nil {c : Char} {cs t : List Char} (hc : isGap c = true)
    (h : quotedGap (c :: cs) = .ok (t, [])) :
    quotedRest double (c :: cs) acc = .error .malformed := by
  rw [quotedRest.eq_def]
  simp [hc, h, bind, Except.bind]

/-- A space is read by itself unless a line end comes behind the spaces. -/
theorem quotedRest_space {cs : List Char} (h : lineEnd? (cs.dropWhile isSpaceOrTab) = none) :
    quotedRest double (' ' :: cs) acc = quotedRest double cs (acc ++ [.char ' ']) := by
  have hd : (' ' :: cs).dropWhile isSpaceOrTab = cs.dropWhile isSpaceOrTab := rfl
  have ht : (' ' :: cs).takeWhile isSpaceOrTab = ' ' :: cs.takeWhile isSpaceOrTab := rfl
  have hg : quotedGap (' ' :: cs) =
      .ok (' ' :: cs.takeWhile isSpaceOrTab, cs.dropWhile isSpaceOrTab) := by
    rw [quotedGap_blanks (by rw [hd, h]), hd, ht]
  cases cs with
  | nil =>
    rw [quotedRest_gap_nil rfl hg, quotedRest]
  | cons d r =>
    by_cases hb : isSpaceOrTab d = true
    · -- the blanks that follow are read at once on both sides
      have hgap : isGap d = true := by simp [isGap, hb]
      have hd' : (d :: r).dropWhile isSpaceOrTab = r.dropWhile isSpaceOrTab := by simp [hb]
      by_cases he : (d :: r).dropWhile isSpaceOrTab = []
      · have hg' := quotedGap_blanks h
        rw [he] at hg hg'
        rw [quotedRest_gap_nil rfl hg, quotedRest_gap_nil hgap hg']
      · rw [quotedRest_gap rfl hg (length_dropWhile_le _ _) he,
          quotedRest_gap hgap (quotedGap_blanks h) (hd' ▸ length_dropWhile_le _ _) he,
          List.append_assoc]
        rfl
    · have hd' : (d :: r).dropWhile isSpaceOrTab = d :: r := by simp [hb]
      have ht' : (d :: r).takeWhile isSpaceOrTab = [] := by simp [hb]
      rw [hd', ht'] at hg
      exact quotedRest_gap rfl hg (Nat.le_refl _) (by simp)

theorem quotedRest_lineFeed {cs t r : List Char} (h : quotedBreaks cs = .ok (t, r))
    (hr : r ≠ []) :
    quotedRest double ('\n' :: cs) acc =
      quotedRest double r (acc ++ (if t.isEmpty then [' '] else t).map .char) := by
  refine quotedRest_gap rfl ?_ (length_quotedBreaks_le h) hr
  have hd : ('\n' :: cs).dropWhile isSpaceOrTab = '\n' :: cs := rfl
  simp only [quotedGap, hd, lineEnd?_lineFeed, h, bind, Except.bind, pure, Except.pure]
  rfl

theorem quotedRest_char {c : Char} (hc : isGap c = false) (hs : double = false → c ≠ '\'')
    (hd : double = true → c ≠ '"' ∧ c ≠ '\\') (cs : List Char) :
    quotedRest double (c :: cs) acc = quotedRest double cs (acc ++ [.char c]) := by
  rw [quotedRest.eq_def]
  cases double with
  | false => simp [hc, hs rfl]
  | true => simp [hc, hd rfl]

end RouteCompiler.Yaml
