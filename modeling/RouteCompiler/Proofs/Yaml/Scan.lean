import RouteCompiler.Proofs.Yaml.DoubleQuoted
import RouteCompiler.Proofs.Yaml.PlainText
import RouteCompiler.Proofs.Yaml.SingleQuoted
import RouteCompiler.Proofs.Yaml.Style
import RouteCompiler.Yaml.Token.Scan

/-!
Scanning text that was written: a key with its colon, a text, the mark of an item and an empty
sequence each come to their tokens. Between tokens a scan is described by what it has read, where it
stands and what is ahead; where a block collection ends, the scan first closes it.
-/

namespace RouteCompiler.Yaml

open Written (spaces)

/-- The text is at its end, or a token other than a comment starts here. -/
def TokenAhead (cs : List Char) : Prop :=
  cs = [] ∨ ∃ c r, cs = c :: r ∧ Style.isShownAscii c = true ∧ c ≠ ' ' ∧ c ≠ '#'

namespace TokenAhead

variable {cs : List Char}

theorem cons {c : Char} (h : Style.isShownAscii c = true) (hs : c ≠ ' ') (hc : c ≠ '#')
    (r : List Char) : TokenAhead (c :: r) := .inr ⟨c, r, rfl, h, hs, hc⟩

theorem endsOrSolid (h : TokenAhead cs) : EndsOrSolid cs := by
  obtain rfl | ⟨c, r, rfl, hc, hs, -⟩ := h
  · exact .inl rfl
  · exact .inr (.cons (by rw [isGap_of_isShownAscii hc, decide_eq_false hs]) r)

theorem skipComment_eq (h : TokenAhead cs) : skipComment cs = cs := by
  obtain rfl | ⟨c, r, rfl, -, -, hc⟩ := h
  · rfl
  · simp [skipComment, hc]

theorem lineEnd?_eq (h : TokenAhead cs) : lineEnd? cs = none := by
  obtain rfl | ⟨c, r, rfl, hc, -, -⟩ := h
  · rfl
  · exact lineEnd?_of_not_isBreak (not_isBreak_of_isShownAscii hc)

theorem head?_ne_mark (h : TokenAhead cs) : cs.head? ≠ some '\ufeff' := by
  obtain rfl | ⟨c, r, rfl, hc, -, -⟩ := h
  · simp
  · intro e
    cases e
    cases hc

end TokenAhead

namespace Scan

/-! ## Blanks -/

theorem skipBlank_spaces {cs : List Char} (h : TokenAhead cs) (n : Nat) :
    skipBlank (spaces n ++ cs) = (false, cs) := by
  unfold skipBlank
  dsimp only
  rw [(span_spaces h.endsOrSolid n).2, h.skipComment_eq]
  split
  · rename_i heq
    rw [h.lineEnd?_eq] at heq
    cases heq
  · rfl

theorem skipBlank_line {cs : List Char} (h : TokenAhead cs) (n : Nat) :
    skipBlank ('\n' :: (spaces n ++ cs)) = (true, cs) := by
  have hc : skipComment (('\n' :: (spaces n ++ cs)).dropWhile (· = ' ')) =
      '\n' :: (spaces n ++ cs) := by
    rw [List.dropWhile_cons_of_neg (by decide)]
    rfl
  unfold skipBlank
  dsimp only
  split
  · rename_i heq
    rw [hc, lineEnd?_lineFeed] at heq
    cases heq
    rw [skipBlank_spaces h]
  · rename_i heq
    rw [hc, lineEnd?_lineFeed] at heq
    cases heq

theorem toToken_eq {s : Scan} (hm : s.cursor.rest.head? ≠ some '\ufeff') {broke : Bool}
    {r : List Char} (hs : skipBlank s.cursor.rest = (broke, r)) :
    s.toToken = { s.moveTo r with keyAllowed := s.keyAllowed || (broke && !s.inFlow) } := by
  simp only [toToken, hm, decide_false, Bool.and_false, Bool.false_eq_true, if_false, hs]

theorem toToken_self {s : Scan} (h : TokenAhead s.cursor.rest) : s.toToken = s := by
  rw [toToken_eq h.head?_ne_mark (skipBlank_spaces h 0), moveTo, Cursor.moveTo_self]
  simp

/-- A scan in block context that has no key to wait for. -/
def at_ (k : Cursor) (ts : List Token) (indent : Int) (outer : List Int) (allowed : Bool) : Scan :=
  ⟨k, ts.toArray, [none], indent, outer, allowed⟩

/-- The scan has read `ts` and goes on with `rest`, the first character of which is at `column`. -/
def Stands (s : Scan) (ts : List Token) (indent : Int) (outer : List Int) (allowed : Bool)
    (column : Nat) (rest : List Char) : Prop :=
  ∃ k : Cursor, s.toToken = at_ k ts indent outer allowed ∧ k.rest = rest ∧ k.column = column ∧
    rest.length ≤ s.cursor.rest.length

variable {k : Cursor} {ts : List Token} {indent : Int} {outer : List Int} {allowed : Bool}
variable {rest : List Char}

theorem stands_spaces {n : Nat} (hk : k.rest = spaces n ++ rest) (h : TokenAhead rest) :
    (at_ k ts indent outer allowed).Stands ts indent outer allowed (k.column + n) rest := by
  have hm : (at_ k ts indent outer allowed).cursor.rest.head? ≠ some '\ufeff' := by
    rw [at_, hk]
    cases n with
    | zero => exact h.head?_ne_mark
    | succ n => simp [spaces, List.replicate_succ]
  have hskip : skipBlank (at_ k ts indent outer allowed).cursor.rest = (false, rest) := by
    rw [at_, hk, skipBlank_spaces h]
  have hw := Cursor.moveTo_within_line hk (by
    intro c hc
    rw [List.eq_of_mem_replicate hc]
    rfl)
  refine ⟨k.moveTo rest, ?_, Cursor.rest_moveTo hk, ?_, ?_⟩
  · rw [toToken_eq hm hskip]
    simp [at_, moveTo]
  · rw [hw, spaces, List.length_replicate]
  · simp [at_, hk]

theorem stands_line {n : Nat} (hk : k.rest = '\n' :: (spaces n ++ rest)) (h : TokenAhead rest) :
    (at_ k ts indent outer allowed).Stands ts indent outer true n rest := by
  have hm : (at_ k ts indent outer allowed).cursor.rest.head? ≠ some '\ufeff' := by
    simp [at_, hk]
  have hskip : skipBlank (at_ k ts indent outer allowed).cursor.rest = (true, rest) := by
    rw [at_, hk, skipBlank_line h]
  refine ⟨k.moveTo rest, ?_, ?_, ?_, ?_⟩
  · rw [toToken_eq hm hskip]
    simp [at_, moveTo, inFlow]
  · exact Cursor.rest_moveTo (w := '\n' :: spaces n) (by simp [hk])
  · exact Cursor.column_moveTo_line (w := []) hk
  · simp [at_, hk]
    omega

/-! ## Block collections that end -/

/-- The scan is about to read the token at the front of `rest`: what ends before it is closed. -/
def Ready (s : Scan) (ts : List Token) (indent : Int) (outer : List Int) (allowed : Bool)
    (column : Nat) (rest : List Char) : Prop :=
  ∃ (k : Cursor) (u : Scan), s.toToken.dropLapsed = .ok u ∧
    u.unwind u.cursor.column = at_ k ts indent outer allowed ∧ k.rest = rest ∧ k.column = column ∧
    rest.length ≤ s.cursor.rest.length

variable {s : Scan} {column : Nat}

theorem dropLapsed_at (k : Cursor) (ts : List Token) (indent : Int) (outer : List Int)
    (allowed : Bool) :
    (at_ k ts indent outer allowed).dropLapsed = .ok (at_ k ts indent outer allowed) := by
  simp [dropLapsed, at_]

theorem unwind_at (c : Int) : (at_ k ts indent outer allowed).unwind c =
    closeTo c (at_ k ts indent outer allowed) outer := by
  simp [unwind, at_, inFlow]

theorem closeTo_of_lt {c i : Int} {o r : List Int} (h : c < indent) :
    closeTo c (at_ k ts indent o allowed) (i :: r) =
      closeTo c (at_ k (ts ++ [.blockEnd]) i o allowed) r := by
  rw [closeTo, if_pos (by simpa [at_] using h)]
  simp [at_, push]

theorem closeTo_outer {c : Int} {o : List Int} (h : indent ≤ c) :
    closeTo c (at_ k ts indent o allowed) outer = at_ k ts indent outer allowed := by
  cases outer with
  | nil => rfl
  | cons i r =>
    rw [closeTo, if_neg (by simpa [at_] using h)]
    rfl

/-- Nothing ends here. -/
theorem Stands.ready (h : s.Stands ts indent outer allowed column rest) (hc : indent ≤ column) :
    s.Ready ts indent outer allowed column rest := by
  obtain ⟨k, hk, hr, hcol, hl⟩ := h
  refine ⟨k, at_ k ts indent outer allowed, by rw [hk, dropLapsed_at], ?_, hr, hcol, hl⟩
  rw [unwind_at, closeTo_outer]
  simpa [at_, hcol] using hc

/-- One collection ends here. -/
theorem Stands.ready_close {i : Int} {o : List Int}
    (h : s.Stands ts indent (i :: o) allowed column rest) (hc : (column : Int) < indent)
    (hi : i ≤ column) : s.Ready (ts ++ [.blockEnd]) i o allowed column rest := by
  obtain ⟨k, hk, hr, hcol, hl⟩ := h
  refine ⟨k, at_ k ts indent (i :: o) allowed, by rw [hk, dropLapsed_at], ?_, hr, hcol, hl⟩
  rw [unwind_at, closeTo_of_lt (by simpa [at_, hcol] using hc), closeTo_outer]
  simpa [at_, hcol] using hi

theorem run_eq {u t : Scan} {c : Char} {r : List Char} (hu : s.toToken.dropLapsed = .ok u)
    (hr : (u.unwind u.cursor.column).cursor.rest = c :: r)
    (ht : (u.unwind u.cursor.column).token c r = .ok t)
    (hl : t.cursor.rest.length < s.cursor.rest.length) : s.run = t.run := by
  rw [run]
  simp only [hu]
  split
  · rename_i heq
    rw [hr] at heq
    cases heq
  · rename_i c' r' heq
    rw [hr] at heq
    cases heq
    simp [ht, hl]

theorem Ready.run {c : Char} {r : List Char} (h : s.Ready ts indent outer allowed column (c :: r))
    {P : Scan → Prop} (ht : ∀ k : Cursor, k.rest = c :: r → k.column = column →
      ∃ t, (at_ k ts indent outer allowed).token c r = .ok t ∧ t.cursor.rest.length ≤ r.length ∧
        P t) : ∃ t, s.run = t.run ∧ P t := by
  obtain ⟨k, u, hu, hk, hr, hcol, hl⟩ := h
  obtain ⟨t, htok, htl, hp⟩ := ht k hr hcol
  refine ⟨t, run_eq hu (c := c) (r := r) ?_ ?_ ?_, hp⟩
  · rw [hk]
    exact hr
  · rw [hk, htok]
  · rw [List.length_cons] at hl
    omega

/-! ## Texts -/

theorem startsPlain_eq {c : Char} {r : List Char} (h : StartsPlain c r) :
    startsPlain false c r = true := by
  have hg : isGap c = false := by rw [isGap_of_isShownAscii h.shown, decide_eq_false h.notSpace]
  by_cases hm : c = '?' ∨ c = ':' ∨ c = '-'
  · have hj := h.joined hm
    rcases hm with rfl | rfl | rfl <;> simp [startsPlain, hj]
  · simp only [not_or] at hm
    rw [startsPlain]
    rw [String.toList_ofList]
    simp [hg, hm, h.ne]

theorem token_plain {c : Char} {r : List Char} (h : StartsPlain c r)
    (hc : k.column ≠ 0 ∨ c ≠ '-' ∧ c ≠ '.') :
    (at_ k ts indent outer allowed).token c r = (at_ k ts indent outer allowed).plainText := by
  have hcol : (at_ k ts indent outer allowed).cursor.column = k.column := rfl
  have hflow : (at_ k ts indent outer allowed).inFlow = false := rfl
  have hminus : ¬ (c = '-' ∧ k.column = 0) := by
    rintro ⟨rfl, h0⟩
    obtain h | h := hc
    · exact h h0
    · exact h.1 rfl
  have hpoint : ¬ (c = '.' ∧ k.column = 0) := by
    rintro ⟨rfl, h0⟩
    obtain h | h := hc
    · exact h h0
    · exact h.2 rfl
  have halone (d : Char) (hd : d = '?' ∨ d = ':' ∨ d = '-') :
      ¬ (c = d ∧ endsOr isGap r = true) := by
    rintro ⟨rfl, ha⟩
    rw [h.joined hd] at ha
    cases ha
  have h₁ := halone '-' (by decide)
  have h₂ := halone '?' (by decide)
  have h₃ := halone ':' (by decide)
  rw [token]
  simp only [hcol, hflow, beq_iff_eq, Bool.and_eq_true, decide_eq_true_eq, Bool.false_or,
    Bool.not_false, and_true, h.ne, false_and, if_false, hminus, hpoint, h₁, h₂, h₃, or_false,
    Bool.or_eq_true, startsPlain_eq h, if_true]

/-- The token a written text comes to. -/
def scalarToken (text : Points) : Token :=
  .scalar text (Style.ofText text.toList = .plain)

theorem markCandidate_at (k : Cursor) (ts : List Token) (indent : Int) (outer : List Int) :
    (at_ k ts indent outer false).markCandidate = .ok (at_ k ts indent outer false) := rfl

theorem pushNode_at (t : Token) (r : List Char) :
    (at_ k ts indent outer false).pushNode t r =
      .ok (at_ (k.moveTo r) (ts ++ [t]) indent outer false) := by
  rw [pushNode]
  rw [markCandidate_at]
  simp [bind, Except.bind, pure, Except.pure, push, moveTo, at_]

theorem Ready.quoted {c : Char} {text : Points} {body : List Char} {n : Nat} {double : Bool}
    (hc : c = '\'' ∧ double = false ∨ c = '"' ∧ double = true)
    (h : s.Ready ts indent outer false column (c :: (body ++ c :: '\n' :: (spaces n ++ rest))))
    (hread : quotedRest double (body ++ c :: '\n' :: (spaces n ++ rest)) [] =
      .ok (text, '\n' :: (spaces n ++ rest))) (ht : TokenAhead rest) :
    ∃ t : Scan, s.run = t.run ∧
      t.Stands (ts ++ [.scalar text false]) indent outer true n rest := by
  refine h.run ?_
  intro k hk _
  have hline : k.rest = (c :: body ++ [c]) ++ '\n' :: (spaces n ++ rest) := by simp [hk]
  have hr := Cursor.rest_moveTo hline
  have htok : (at_ k ts indent outer false).token c (body ++ c :: '\n' :: (spaces n ++ rest)) =
      .ok (at_ (k.moveTo ('\n' :: (spaces n ++ rest)))
        (ts ++ [.scalar text false]) indent outer false) := by
    rcases hc with ⟨rfl, rfl⟩ | ⟨rfl, rfl⟩ <;>
      simp [token, hread, bind, Except.bind, pushNode_at]
  refine ⟨_, htok, ?_, stands_line hr ht⟩
  simp only [at_, hr, List.length_append, List.length_cons]
  omega

theorem endsOr_plain (w column : Nat) (previous : Char) (l tail : List Char) :
    endsOr isGap (Written.plain w column previous l ++ '\n' :: tail) = endsOr isGap l := by
  cases l with
  | nil => rfl
  | cons c l =>
    rw [Written.plain]
    split
    · rename_i h
      simp only [Bool.and_eq_true, decide_eq_true_eq] at h
      rw [h.1.1.1]
      rfl
    · rfl

theorem plainText_at {cs : List Char}
    (hread : plain false (indent + 1) k.rest = ⟨cs, true, rest⟩) :
    (at_ k ts indent outer false).plainText =
      .ok (at_ (k.moveTo rest) (ts ++ [.scalar (cs.map .char) true]) indent outer true) := by
  have hflow : (at_ k ts indent outer false).inFlow = false := rfl
  have hcur : (at_ k ts indent outer false).cursor.rest = k.rest := rfl
  have hind : (at_ k ts indent outer false).indent = indent := rfl
  rw [plainText, markCandidate_at]
  simp only [bind, Except.bind, pure, Except.pure, hflow, hcur, hind, hread]
  simp [push, moveTo, at_]

theorem Ready.plain {cs : List Char} {w column' n : Nat} (hcs : Style.allowsPlain cs = true)
    (h : s.Ready ts indent outer false column
      (Written.plain w column' 'x' cs ++ '\n' :: (spaces n ++ rest)))
    (hcol : column ≠ 0) (hwi : indent + 1 ≤ (w : Int)) (hw : 0 < w) (hn : (n : Int) ≤ indent)
    (ht : TokenAhead rest) (hsep : atSeparator (spaces n ++ rest) = false) :
    ∃ t : Scan, s.run = t.run ∧
      t.Stands (ts ++ [.scalar (cs.map .char) true]) indent outer true n rest := by
  obtain ⟨hall, hlast, -, hmark, c, l, rfl, hc⟩ := of_allowsPlain hcs
  have hread := plainRuns_plain hw hwi ht.endsOrSolid hsep (by omega)
    ⟨hall, hc.notSpace, hc.ne.1, hlast, hmark⟩ column' 'x' [] [] false
  rw [plain_solid hc.notSpace, List.cons_append] at h hread
  refine h.run ?_
  intro k hk hkc
  have hline : k.rest = (c :: Written.plain w (column' + 1) c l) ++ '\n' :: (spaces n ++ rest) :=
    hk
  have hstart : StartsPlain c (Written.plain w (column' + 1) c l ++ '\n' :: (spaces n ++ rest)) :=
    ⟨hc.shown, hc.notSpace, hc.notOpener, fun h => by rw [endsOr_plain]; exact hc.joined h⟩
  have hrest : (k.moveTo rest).rest = rest := Cursor.rest_moveTo
    (w := c :: Written.plain w (column' + 1) c l ++ '\n' :: spaces n) (by simp [hk])
  rw [← hk] at hread
  refine ⟨_, by rw [token_plain hstart (.inl (by rwa [hkc])), plainText_at hread], ?_, ?_⟩
  · simp only [at_, hrest, List.length_append, List.length_cons]
    omega
  · -- the scalar has taken the indentation of the next line with it
    have hs : (at_ (k.moveTo rest) (ts ++ [.scalar ((c :: l).map .char) true]) indent outer
        true).Stands _ _ _ _ ((k.moveTo rest).column + 0) rest :=
      stands_spaces (by simpa [spaces] using hrest) ht
    rw [Cursor.column_moveTo_line hline, Nat.add_zero] at hs
    exact hs

/-- A text that was written, and the line that comes behind it. -/
theorem Ready.scalar {w column' n : Nat} {text : Points}
    (h : s.Ready ts indent outer false column
      (Written.scalar w column' text ++ '\n' :: (spaces n ++ rest)))
    (hw : w < Written.width) (hwi : indent + 1 ≤ (w : Int)) (hn : (n : Int) ≤ indent)
    (hcol : column ≠ 0) (ht : TokenAhead rest) (hsep : atSeparator (spaces n ++ rest) = false) :
    ∃ t : Scan, s.run = t.run ∧ t.Stands (ts ++ [scalarToken text]) indent outer true n rest := by
  have hw0 : 0 < w := by omega
  rw [scalarToken]
  rw [Written.scalar] at h
  cases hstyle : Style.ofText text.toList with
  | plain =>
    rw [hstyle] at h
    have hplain := allowsPlain_of_ofText hstyle
    have htext : text.toList.map .char = text := map_char_of_isPlainAscii fun c hc => by
      rw [isPlainAscii, (of_allowsPlain hplain).1 c hc, Bool.true_or]
    rw [← htext]
    simpa [htext] using h.plain hplain hcol hwi hw0 hn ht hsep
  | single =>
    have hs := allowsSingle_of_ofText hstyle
    simp only [Style.allowsSingle, Bool.and_eq_true, List.all_eq_true, Bool.not_eq_true'] at hs
    have htail : ('\n' :: (spaces n ++ rest)).head? ≠ some '\'' := by simp
    have hblank : Style.hasBlankAtBreak ('x' :: text.toList) = false := by
      simpa [Style.hasBlankAtBreak] using hs.2
    have hread := quotedRest_folded hw0 htail text.toList 'x' (column' + 1) [] (by simp) hblank hs.1
    rw [List.nil_append, map_char_of_isPlainAscii hs.1] at hread
    simp only [hstyle, List.cons_append, List.append_assoc, List.nil_append] at h
    simpa using h.quoted (.inl ⟨rfl, rfl⟩) hread ht
  | double =>
    have hread := readsBack hw0 hw ('\n' :: (spaces n ++ rest)) text (column' + 1) true false []
    simp only [hstyle, List.cons_append, List.append_assoc, List.nil_append] at h
    simpa using h.quoted (.inr ⟨rfl, rfl⟩) hread ht

end Scan
end RouteCompiler.Yaml
