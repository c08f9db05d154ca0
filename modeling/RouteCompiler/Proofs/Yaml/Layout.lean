import RouteCompiler.Proofs.Json.Spelling
import RouteCompiler.Proofs.Yaml.Scan

/-!
Spaces and line ends between the parts of a JSON text. Between tokens they are skipped, whatever
their order, and behind a word or a number they end the plain scalar that it is read as.
-/

namespace RouteCompiler.Yaml

open Json (IsLayout)

variable {l t : List Char}

/-! ## Line ends -/

theorem lineEnd?_return {cs : List Char} (h : cs.head? ≠ some '\n') :
    lineEnd? ('\r' :: cs) = some ('\n', cs) := by
  cases cs with
  | nil => rfl
  | cons c cs =>
    have hc : c ≠ '\n' := fun e => h (by rw [e]; rfl)
    simp [lineEnd?, hc]

/-- Layout in front of other text: spaces only, or spaces and then a line end with less layout
behind it. -/
theorem dropWhile_layout (h : IsLayout l) (ht : EndsOrSolid t) :
    (l ++ t).dropWhile (· = ' ') = t ∨ ∃ l', IsLayout l' ∧ l'.length < l.length ∧
      lineEnd? ((l ++ t).dropWhile (· = ' ')) = some ('\n', l' ++ t) := by
  have hreturn {l : List Char} (hl : IsLayout l) (hn : (l ++ t).head? ≠ some '\n') :
      ∃ l', IsLayout l' ∧ l'.length < ('\r' :: l).length ∧
        lineEnd? ('\r' :: (l ++ t)) = some ('\n', l' ++ t) :=
    ⟨l, hl, Nat.lt_succ_self _, lineEnd?_return hn⟩
  induction l with
  | nil => exact .inl (span_spaces ht 0).2
  | cons c l ih =>
    have hl := h.tail
    obtain rfl | rfl | rfl := h c List.mem_cons_self
    · obtain h | ⟨l', hl', hlt, hend⟩ := ih hl
      · exact .inl h
      · exact .inr ⟨l', hl', Nat.lt_succ_of_lt hlt, hend⟩
    · exact .inr ⟨l, hl, Nat.lt_succ_self _, rfl⟩
    · refine .inr ?_
      rw [List.cons_append, List.dropWhile_cons_of_neg (by decide)]
      cases l with
      | nil =>
        refine hreturn hl ?_
        obtain rfl | ⟨c, r, rfl, hc⟩ := ht
        · simp
        · rintro ⟨⟩
          cases hc
      | cons d l =>
        obtain rfl | rfl | rfl := hl d List.mem_cons_self
        · exact hreturn hl (by simp)
        · exact ⟨l, hl.tail, Nat.lt_succ_of_lt (Nat.lt_succ_self _), rfl⟩
        · exact hreturn hl (by simp)

theorem skipComment_of_lineEnd? {cs : List Char} {p : Char × List Char}
    (h : lineEnd? cs = some p) : skipComment cs = cs := by
  rw [skipComment, if_neg]
  intro hc
  cases cs with
  | nil => cases hc
  | cons c cs =>
    cases hc
    cases h

theorem Scan.skipBlank_layout {l : List Char} (h : IsLayout l) (ht : TokenAhead t) :
    ∃ broke, Scan.skipBlank (l ++ t) = (broke, t) := by
  rw [Scan.skipBlank]
  obtain hdrop | ⟨l', hl', hlt, hend⟩ := dropWhile_layout h ht.endsOrSolid
  · rw [hdrop, ht.skipComment_eq]
    split
    · rename_i heq
      rw [ht.lineEnd?_eq] at heq
      cases heq
    · exact ⟨_, rfl⟩
  · obtain ⟨broke, hskip⟩ := skipBlank_layout hl' ht
    rw [skipComment_of_lineEnd? hend]
    split
    · rename_i heq
      rw [hend] at heq
      cases heq
      rw [hskip]
      exact ⟨true, rfl⟩
    · rename_i heq
      rw [hend] at heq
      cases heq
termination_by l.length

/-! ## Plain scalars -/

theorem gapBreaks_dropWhile (column : Nat) (cs : List Char) :
    ∃ n, gapBreaks column cs = gapBreaks n (cs.dropWhile (· = ' ')) := by
  induction cs generalizing column with
  | nil => exact ⟨column, rfl⟩
  | cons c cs ih =>
    by_cases hc : c = ' '
    · subst hc
      rw [gapBreaks, List.dropWhile_cons_of_pos (by decide)]
      exact ih (column + 1)
    · rw [List.dropWhile_cons_of_neg (by simpa using hc)]
      exact ⟨column, rfl⟩

theorem gapBreaks_lineEnd {column : Nat} {cs r : List Char} {b : Char}
    (h : lineEnd? cs = some (b, r)) (hs : atSeparator r = false) :
    gapBreaks column cs = { gapBreaks 0 r with text := b :: (gapBreaks 0 r).text } := by
  have hspace : ∀ r', cs ≠ ' ' :: r' := by
    rintro r' rfl
    cases h
  rw [gapBreaks]
  · split
    · rename_i heq
      rw [h] at heq
      cases heq
    · rename_i heq
      rw [h] at heq
      cases heq
      simp [hs]
  · rintro rfl
    cases h
  · exact fun r' e => hspace r' e

theorem atSeparator_layout (h : IsLayout l) (ht : atSeparator t = false) :
    atSeparator (l ++ t) = false := by
  cases l with
  | nil => exact ht
  | cons c l => obtain rfl | rfl | rfl := h c List.mem_cons_self <;> rfl

/-- The gap is layout up to the text behind it. -/
theorem gapBreaks_layout (column : Nat) {l : List Char} (h : IsLayout l) (ht : EndsOrSolid t)
    (hs : atSeparator t = false) :
    (gapBreaks column (l ++ t)).rest = t ∧ (gapBreaks column (l ++ t)).separated = false := by
  obtain ⟨n, hn⟩ := gapBreaks_dropWhile column (l ++ t)
  rw [hn]
  obtain hdrop | ⟨l', hl', hlt, hend⟩ := dropWhile_layout h ht
  · have hsolid := gapBreaks_spaces ht n 0
    rw [Written.spaces, List.replicate_zero, List.nil_append] at hsolid
    rw [hdrop, hsolid]
    exact ⟨rfl, rfl⟩
  · rw [gapBreaks_lineEnd hend (atSeparator_layout hl' hs)]
    exact gapBreaks_layout 0 hl' ht hs
termination_by l.length

theorem gap_layout (h : IsLayout l) (ht : EndsOrSolid t) (hs : atSeparator t = false) :
    (gap (l ++ t)).rest = t ∧ (gap (l ++ t)).separated = false := by
  rw [gap]
  dsimp only
  obtain hdrop | ⟨l', hl', -, hend⟩ := dropWhile_layout h ht
  · have hnone : lineEnd? t = none := by
      obtain rfl | ht := ht
      · rfl
      · exact ht.lineEnd?_eq
    rw [hdrop, hnone]
    exact ⟨rfl, rfl⟩
  · obtain ⟨hrest, hseparated⟩ := gapBreaks_layout 0 hl' ht hs
    simp only [hend, atSeparator_layout hl' hs, Bool.false_eq_true, if_false]
    exact ⟨hrest, hseparated⟩

/-- Behind a value comes the end of the text or, in a collection, a comma or a closing bracket. -/
def Closes (depth : Nat) (t : List Char) : Prop :=
  t = [] ∨ 0 < depth ∧ ∃ c r, t = c :: r ∧ (c = ',' ∨ c = ']' ∨ c = '\x7d')

namespace Closes

variable {depth : Nat}

theorem tokenAhead (h : Closes depth t) : TokenAhead t := by
  obtain rfl | ⟨-, c, r, rfl, rfl | rfl | rfl⟩ := h
  · exact .inl rfl
  · exact .cons rfl (by decide) (by decide) r
  · exact .cons rfl (by decide) (by decide) r
  · exact .cons rfl (by decide) (by decide) r

theorem atSeparator_eq (h : Closes depth t) : atSeparator t = false := by
  obtain rfl | ⟨-, c, r, rfl, rfl | rfl | rfl⟩ := h <;> rfl

theorem plainRuns_eq (h : Closes depth t) (text pending : List Char) (crossed : Bool) :
    plainRuns (0 < depth) 0 text pending crossed t = ⟨text, crossed, t⟩ := by
  obtain rfl | ⟨hd, c, r, rfl, hc⟩ := h
  · rw [plainRuns]
  · have hstops : plainStops (0 < depth) c r = true := by
      obtain rfl | rfl | rfl := hc <;> simp [plainStops, isFlowMark, hd]
    rw [plainRuns, hstops, Bool.or_true, if_pos rfl]

end Closes

/-- The characters that words and numbers are written with. -/
def bareChars : List Char := "+-.0123456789Eaeflnrstu".toList

theorem plainStops_of_mem_bareChars {c : Char} (h : c ∈ bareChars) (inFlow : Bool)
    (r : List Char) : plainStops inFlow c r = false := by
  have hall : bareChars.all (fun c => !isGap c && c != ':' && c != '?' && !isFlowMark c) =
      true := by decide
  have hc := List.all_eq_true.1 hall c h
  simp only [Bool.and_eq_true, Bool.not_eq_true', bne_iff_ne] at hc
  obtain ⟨⟨⟨hgap, hcolon⟩, hquestion⟩, hflow⟩ := hc
  simp [plainStops, hgap, hcolon, hquestion, hflow]

theorem mem_bareChars_of_isDigit {c : Char} (h : Json.isDigit c = true) : c ∈ bareChars := by
  have hall : ∀ d, d < 10 → Char.ofNat (48 + d) ∈ bareChars := by decide
  have hc : 48 ≤ c.toNat ∧ c.toNat ≤ 57 := by
    simpa [Json.isDigit, Char.le_def, UInt32.le_iff_toNat_le] using h
  have hmem := hall (c.toNat - 48) (by omega)
  rwa [Nat.add_sub_cancel' hc.1, Char.ofNat_toNat] at hmem

theorem mem_bareChars_of_bare {w : List Char} {v : Json} (h : Json.Bare w v) :
    ∀ c ∈ w, c ∈ bareChars := by
  have hdigits {ds : List Char} (h : Json.IsDigits ds) : ∀ c ∈ ds, c ∈ bareChars :=
    fun c hc => mem_bareChars_of_isDigit (h.digits c hc)
  have hall {w : List Char} (h : w.all bareChars.contains = true) : ∀ c ∈ w, c ∈ bareChars :=
    fun c hc => List.contains_iff_mem.1 (List.all_eq_true.1 h c hc)
  have hsign (negative : Bool) : ∀ c ∈ Json.sign negative, c ∈ bareChars :=
    hall (by cases negative <;> decide)
  have hexponent {es : List Char} {e : Int} (h : Json.Exponent es e) : ∀ c ∈ es, c ∈ bareChars := by
    cases h with
    | none => simp
    | positive he hd | negative he hd =>
      intro c hc
      simp only [List.mem_cons] at hc
      obtain rfl | rfl | hc := hc
      · obtain rfl | rfl := he <;> decide
      · decide
      · exact hdigits hd c hc
  cases h with
  | word h =>
    simp only [Json.plainWords, List.mem_cons, Prod.mk.injEq, List.not_mem_nil, or_false] at h
    obtain ⟨rfl, -⟩ | ⟨rfl, -⟩ | ⟨rfl, -⟩ := h <;> exact hall (by decide)
  | whole negative h =>
    intro c hc
    obtain hc | hc := List.mem_append.1 hc
    · exact hsign negative c hc
    · exact hdigits h.toIsDigits c hc
  | decimal negative hd hf he =>
    intro c hc
    simp only [List.mem_append, List.mem_cons] at hc
    obtain hc | hc | rfl | hc | hc := hc
    · exact hsign negative c hc
    · exact hdigits hd.toIsDigits c hc
    · decide
    · exact hdigits hf c hc
    · exact hexponent he c hc

theorem plainLength_layout {w : List Char} (hw : ∀ c ∈ w, c ∈ bareChars) (h : IsLayout l)
    {depth : Nat} (ht : Closes depth t) :
    plainLength (0 < depth) (w ++ (l ++ t)) = w.length := by
  induction w with
  | nil =>
    cases l with
    | nil =>
      obtain rfl | ⟨hd, c, r, rfl, hc⟩ := ht
      · rfl
      · have hstops : plainStops (0 < depth) c r = true := by
          obtain rfl | rfl | rfl := hc <;> simp [plainStops, isFlowMark, hd]
        simp [plainLength, hstops]
    | cons c l =>
      have hgap : isGap c = true := by obtain rfl | rfl | rfl := h c List.mem_cons_self <;> rfl
      simp [plainLength, plainStops, hgap]
  | cons c w ih =>
    have hstops := plainStops_of_mem_bareChars (hw c List.mem_cons_self) (0 < depth)
      (w ++ (l ++ t))
    rw [List.cons_append, plainLength, hstops, if_neg (by decide),
      ih fun d hd => hw d (List.mem_cons_of_mem c hd), List.length_cons]

/-- A word or a number is read up to the layout behind it, which is taken along. -/
theorem plain_layout {c : Char} {w : List Char} (hw : ∀ d ∈ c :: w, d ∈ bareChars)
    (h : IsLayout l) {depth : Nat} (ht : Closes depth t) :
    ∃ crossed, plain (0 < depth) 0 (c :: w ++ (l ++ t)) = ⟨c :: w, crossed, t⟩ := by
  have hc := hw c List.mem_cons_self
  have hhash : c ≠ '#' := by
    rintro rfl
    revert hc
    decide
  have hlength := plainLength_layout (fun d hd => hw d (List.mem_cons_of_mem c hd)) h ht
  obtain ⟨hrest, hseparated⟩ := gap_layout h ht.tokenAhead.endsOrSolid ht.atSeparator_eq
  have hcolumn : (gap (l ++ t)).column.any (fun k => decide ((k : Int) < 0)) = false := by
    cases (gap (l ++ t)).column with
    | none => rfl
    | some k => simp
  have hmark : t.head? ≠ some '#' := by
    obtain rfl | ⟨-, d, r, rfl, hd⟩ := ht
    · simp
    · obtain rfl | rfl | rfl := hd <;> simp
  rw [plain, List.cons_append, plainRuns]
  simp only [hhash, plainStops_of_mem_bareChars hc, hlength, List.take_left, List.drop_left, hrest,
    hseparated, hcolumn, hmark, ht.plainRuns_eq]
  simp only [decide_false, Bool.or_false, Bool.false_or, Bool.and_false, Bool.false_eq_true,
    if_false, List.nil_append]
  split
  · exact ⟨_, rfl⟩
  · exact ⟨_, rfl⟩

end RouteCompiler.Yaml
