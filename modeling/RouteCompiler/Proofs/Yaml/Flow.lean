import RouteCompiler.Proofs.Yaml.JsonString
import RouteCompiler.Proofs.Yaml.Layout

/-!
Scanning flow collections. No block collection is open in a JSON text and no key is required, so
that a scan is described by what it has read, how many collections are open and what is left. What
is read of a text and the tokens it comes to are put together piece by piece.
-/

namespace RouteCompiler.Yaml

open Json (IsLayout Quoted)

namespace Cursor

/-- Within a line the index counts characters. -/
theorem moveTo_index {k : Cursor} {w r : List Char} (h : k.rest = w ++ r)
    (hw : ∀ c ∈ w, isBreak c = false) :
    (k.moveTo r).index = k.index + w.length ∧ (k.moveTo r).line = k.line := by
  rw [moveTo_eq_advance h]
  induction w generalizing k with
  | nil => exact ⟨rfl, rfl⟩
  | cons c w ih =>
    have hn : k.next.rest = w ++ r ∧ k.next.index = k.index + 1 ∧ k.next.line = k.line := by
      rw [next, h]
      simp [endsLine, hw c List.mem_cons_self]
    obtain ⟨hrest, hindex, hline⟩ := hn
    obtain ⟨h₁, h₂⟩ := ih hrest fun d hd => hw d (List.mem_cons_of_mem c hd)
    rw [List.length_cons, advance, h₁, h₂, hindex, hline]
    exact ⟨by omega, rfl⟩

end Cursor

namespace Scan

/-! ## States -/

/-- A scan without open block collections. -/
def flow (k : Cursor) (ts : List Token) (cs : List (Option Candidate)) (allowed : Bool) : Scan :=
  ⟨k, ts.toArray, cs, -1, [], allowed⟩

/-- None of the candidates must turn out to be a key. -/
def Optional (cs : List (Option Candidate)) : Prop :=
  ∀ c ∈ cs, c.any (·.required) = false

/-- The scan has read `ts` and stands in `depth` collections before `rest`; with `key`, a key may
start there. -/
def Inside (s : Scan) (ts : List Token) (depth : Nat) (key : Bool) (rest : List Char) : Prop :=
  ∃ (k : Cursor) (cs : List (Option Candidate)) (allowed : Bool), s = flow k ts cs allowed ∧
    Optional cs ∧ cs.length = depth + 1 ∧ k.rest = rest ∧ (key = true → allowed = true)

variable {k : Cursor} {ts : List Token} {cs : List (Option Candidate)} {allowed : Bool}

namespace Optional

theorem tail (h : Optional cs) : Optional cs.tail :=
  fun c hc => h c (List.mem_of_mem_tail hc)

theorem cons (h : Optional cs) {c : Option Candidate} (hc : c.any (·.required) = false) :
    Optional (c :: cs) := by
  intro d hd
  obtain rfl | hd := List.mem_cons.1 hd
  · exact hc
  · exact h d hd

theorem candidate (h : Optional cs) :
    (flow k ts cs allowed).candidate.any (·.required) = false := by
  cases cs with
  | nil => rfl
  | cons c cs => exact h c List.mem_cons_self

end Optional

/-! ## Between tokens -/

variable (ts cs allowed) in
theorem toToken_flow {l t : List Char} (hk : k.rest = l ++ t) (hl : IsLayout l)
    (ht : TokenAhead t) : ∃ a, (allowed = true → a = true) ∧
      (flow k ts cs allowed).toToken = flow (k.moveTo t) ts cs a := by
  obtain ⟨broke, hskip⟩ := skipBlank_layout hl ht
  have hmark : (flow k ts cs allowed).cursor.rest.head? ≠ some '\ufeff' := by
    change k.rest.head? ≠ _
    rw [hk]
    cases l with
    | nil => exact ht.head?_ne_mark
    | cons c l =>
      rintro ⟨⟩
      obtain h | h | h := hl '\ufeff' List.mem_cons_self <;> revert h <;> decide
  rw [← hk] at hskip
  refine ⟨_, ?_, toToken_eq hmark hskip⟩
  rintro rfl
  rfl

/-- The candidates that have not lapsed at the cursor. -/
def current (k : Cursor) (cs : List (Option Candidate)) : List (Option Candidate) :=
  cs.map fun c => if c.any (lapsed k) then none else c

theorem Optional.current (h : Optional cs) (k : Cursor) : Optional (current k cs) := by
  intro c hc
  obtain ⟨d, hd, rfl⟩ := List.mem_map.1 hc
  split
  · rfl
  · exact h d hd

theorem length_current (k : Cursor) (cs : List (Option Candidate)) :
    (current k cs).length = cs.length := List.length_map _

/-- A candidate on the line of the cursor, and not too far behind it, is current. -/
theorem current_cons {c : Candidate} (cs : List (Option Candidate)) (hl : c.line = k.line)
    (hi : k.index ≤ c.index + 1024) : current k (some c :: cs) = some c :: current k cs := by
  have hlapsed : lapsed k c = false := by
    simp only [lapsed, hl, ne_eq, not_true_eq_false, decide_false, Bool.false_or,
      decide_eq_false_iff_not]
    omega
  simp [current, hlapsed]

theorem dropLapsed_flow (h : Optional cs) :
    (flow k ts cs allowed).dropLapsed = .ok (flow k ts (current k cs) allowed) := by
  have hnone : (cs.any fun c => c.any (lapsed k) && c.any (·.required)) = false := by
    rw [List.any_eq_false]
    intro c hc
    simp [h c hc]
  simp only [dropLapsed, flow, hnone]
  rfl

theorem unwind_flow (column : Int) :
    (flow k ts cs allowed).unwind column = flow k ts cs allowed := by
  simp only [unwind, flow, closeTo, ite_self]

variable (ts) in
/-- Reading one token moves the scan on. -/
theorem run_flow {c : Char} {l r : List Char} (hk : k.rest = l ++ c :: r) (hl : IsLayout l)
    (hc : TokenAhead (c :: r)) (h : Optional cs) : ∃ a, (allowed = true → a = true) ∧
      ∀ t, (flow (k.moveTo (c :: r)) ts (current (k.moveTo (c :: r)) cs) a).token c r = .ok t →
        t.cursor.rest.length ≤ r.length → (flow k ts cs allowed).run = t.run := by
  obtain ⟨a, ha, htoken⟩ := toToken_flow ts cs allowed hk hl hc
  refine ⟨a, ha, fun t ht hlt => ?_⟩
  refine run_eq (c := c) (r := r) (by rw [htoken, dropLapsed_flow h]) ?_ ?_ ?_
  · rw [unwind_flow]
    exact Cursor.rest_moveTo hk
  · rw [unwind_flow]
    exact ht
  · change _ < k.rest.length
    rw [hk, List.length_append, List.length_cons]
    omega

variable {s : Scan} {depth depth' : Nat} {key key' : Bool} {r rest : List Char} {c : Char}

theorem Inside.rest_eq (h : s.Inside ts depth key rest) : s.cursor.rest = rest := by
  obtain ⟨k, cs, allowed, rfl, -, -, hk, -⟩ := h
  exact hk

theorem Inside.weaken (h : s.Inside ts depth key rest) : s.Inside ts depth false rest := by
  obtain ⟨k, cs, allowed, hs, hopt, hlen, hk, -⟩ := h
  exact ⟨k, cs, allowed, hs, hopt, hlen, hk, fun e => absurd e Bool.false_ne_true⟩

theorem Inside.run {ts' : List Token} {l : List Char} (h : s.Inside ts depth key (l ++ c :: r))
    (hl : IsLayout l) (hc : TokenAhead (c :: r)) (hr : rest.length ≤ r.length)
    (ht : ∀ u : Scan, u.Inside ts depth key (c :: r) →
      ∃ t, u.token c r = .ok t ∧ t.Inside ts' depth' key' rest) :
    ∃ t : Scan, s.run = t.run ∧ t.Inside ts' depth' key' rest := by
  obtain ⟨k, cs, allowed, rfl, hopt, hlen, hk, hkey⟩ := h
  obtain ⟨a, ha, hrun⟩ := run_flow ts hk hl hc hopt
  obtain ⟨t, htoken, hinside⟩ := ht _ ⟨_, _, a, rfl, hopt.current (k.moveTo (c :: r)),
    by rw [length_current, hlen], Cursor.rest_moveTo hk, fun e => ha (hkey e)⟩
  exact ⟨t, hrun t htoken (by rw [hinside.rest_eq]; exact hr), hinside⟩

/-! ## Single tokens -/

/-- The candidates when a token has started that may be a key. -/
def marked (k : Cursor) (ts : List Token) (cs : List (Option Candidate)) (allowed : Bool) :
    List (Option Candidate) :=
  if allowed then some ⟨false, ts.length, k.index, k.line, k.column⟩ :: cs.tail else cs

theorem Optional.marked (h : Optional cs) (k : Cursor) (ts : List Token) (allowed : Bool) :
    Optional (marked k ts cs allowed) := by
  cases allowed with
  | false => exact h
  | true => exact h.tail.cons rfl

theorem length_marked {n : Nat} (h : cs.length = n + 1) (k : Cursor) (ts : List Token)
    (allowed : Bool) : (marked k ts cs allowed).length = n + 1 := by
  cases allowed <;> simp [marked, h]

theorem dropCandidate_flow (h : Optional cs) :
    (flow k ts cs allowed).dropCandidate = .ok (flow k ts (none :: cs.tail) allowed) := by
  rw [dropCandidate, h.candidate]
  rfl

/-- Where only layout is left, the scan is at its end. -/
theorem Inside.run_end {l : List Char} (h : s.Inside ts depth key (l ++ [])) (hl : IsLayout l) :
    s.run = (ts.toArray, none) := by
  obtain ⟨k, cs, allowed, rfl, hopt, -, hk, -⟩ := h
  obtain ⟨a, -, htoken⟩ := toToken_flow ts cs allowed hk hl (.inl rfl)
  have hrest : (flow (k.moveTo []) ts (current (k.moveTo []) cs) a).cursor.rest = [] :=
    Cursor.rest_moveTo hk
  have hdrop : (flow (k.moveTo []) ts cs a).dropLapsed =
      .ok (flow (k.moveTo []) ts (current (k.moveTo []) cs) a) := dropLapsed_flow hopt
  rw [Scan.run, htoken, hdrop]
  simp only [unwind_flow]
  split
  · rw [dropCandidate_flow (hopt.current _)]
    rfl
  · rename_i heq
    rw [hrest] at heq
    cases heq

theorem skipBlank_tab (r : List Char) : skipBlank ('\t' :: r) = (false, '\t' :: r) := by
  rw [skipBlank]
  rfl

theorem token_tab (s : Scan) (r : List Char) : s.token '\t' r = .error .malformed := by
  simp [token, startsPlain, isGap, isSpaceOrTab]

/-- No token starts with a tabulator, and none is skipped. -/
theorem Inside.run_tab (h : s.Inside ts depth key ('\t' :: r)) :
    ∃ n, s.run = ((ts.take n).toArray, some .malformed) := by
  obtain ⟨k, cs, allowed, rfl, hopt, -, hk, -⟩ := h
  have hself : (flow k ts cs allowed).toToken = flow k ts cs allowed := by
    have hmark : (flow k ts cs allowed).cursor.rest.head? ≠ some '\ufeff' := by
      change k.rest.head? ≠ _
      simp [hk]
    have hskip : skipBlank (flow k ts cs allowed).cursor.rest = (false, k.rest) := by
      change skipBlank k.rest = _
      rw [hk, skipBlank_tab]
    rw [toToken_eq hmark hskip]
    simp [moveTo, flow, Cursor.moveTo_self]
  rw [Scan.run, hself, dropLapsed_flow hopt]
  simp only [unwind_flow]
  split
  · rename_i heq
    rw [show (flow k ts (current k cs) allowed).cursor.rest = k.rest from rfl, hk] at heq
    cases heq
  · rename_i heq
    rw [show (flow k ts (current k cs) allowed).cursor.rest = k.rest from rfl, hk] at heq
    cases heq
    rw [token_tab]
    exact ⟨_, by rw [ready, flow, List.extract_toArray]; rfl⟩

theorem markCandidate_flow (h : Optional cs) : (flow k ts cs allowed).markCandidate =
    .ok (flow k ts (marked k ts cs allowed) allowed) := by
  cases allowed with
  | false => rfl
  | true =>
    have hcolumn : ((-1 : Int) == (k.column : Int)) = false := beq_eq_false_iff_ne.2 (by omega)
    have hrequired : (!(flow k ts cs true).inFlow &&
        (flow k ts cs true).indent == (flow k ts cs true).cursor.column) = false := by
      rw [Bool.and_eq_false_iff]
      exact .inr hcolumn
    have hallowed : (flow k ts cs true).keyAllowed = true := rfl
    simp only [markCandidate, hallowed, if_true, hrequired, dropCandidate_flow h]
    rfl

variable {tok : Token}

theorem push_flow (tok : Token) (r : List Char) : ((flow k ts cs allowed).push tok).moveTo r =
    flow (k.moveTo r) (ts ++ [tok]) cs allowed := by
  simp [push, moveTo, flow]

theorem Inside.openFlow (h : s.Inside ts depth key (c :: r)) :
    ∃ t, s.openFlow tok r = .ok t ∧ t.Inside (ts ++ [tok]) (depth + 1) true r := by
  obtain ⟨k, cs, allowed, rfl, hopt, hlen, hk, -⟩ := h
  rw [Scan.openFlow, markCandidate_flow hopt]
  refine ⟨_, rfl, k.moveTo r, none :: marked k ts cs allowed, true, push_flow tok r,
    (hopt.marked k ts allowed).cons rfl, ?_, Cursor.rest_moveTo (w := [c]) hk, fun e => e⟩
  rw [List.length_cons, length_marked hlen]

theorem Inside.closeFlow (h : s.Inside ts (depth + 1) key (c :: r)) :
    ∃ t, s.closeFlow tok r = .ok t ∧ t.Inside (ts ++ [tok]) depth false r := by
  obtain ⟨k, cs, allowed, rfl, hopt, hlen, hk, -⟩ := h
  have hflow : (flow k ts (none :: cs.tail) allowed).inFlow = true := by
    simp [inFlow, flow, hlen]
  rw [Scan.closeFlow, dropCandidate_flow hopt]
  simp only [bind, Except.bind, hflow, if_true]
  exact ⟨_, rfl, k.moveTo r, cs.tail, false, push_flow tok r, hopt.tail, by simp [hlen],
    Cursor.rest_moveTo (w := [c]) hk, fun e => absurd e Bool.false_ne_true⟩

theorem Inside.flowEntry (h : s.Inside ts depth key (c :: r)) :
    ∃ t, s.flowEntry r = .ok t ∧ t.Inside (ts ++ [.flowEntry]) depth true r := by
  obtain ⟨k, cs, allowed, rfl, hopt, hlen, hk, -⟩ := h
  rw [Scan.flowEntry, dropCandidate_flow hopt]
  exact ⟨_, rfl, k.moveTo r, none :: cs.tail, true, push_flow .flowEntry r, hopt.tail.cons rfl,
    by simp [hlen], Cursor.rest_moveTo (w := [c]) hk, fun _ => rfl⟩

theorem pushNode_flow (h : Optional cs) (tok : Token) (r : List Char) :
    (flow k ts cs allowed).pushNode tok r =
      .ok (flow (k.moveTo r) (ts ++ [tok]) (marked k ts cs allowed) false) := by
  rw [pushNode, markCandidate_flow h]
  exact congrArg Except.ok (push_flow tok r)

theorem Inside.pushNode {w : List Char} (h : s.Inside ts depth key (w ++ r)) :
    ∃ t, s.pushNode tok r = .ok t ∧ t.Inside (ts ++ [tok]) depth false r := by
  obtain ⟨k, cs, allowed, rfl, hopt, hlen, hk, -⟩ := h
  exact ⟨_, pushNode_flow hopt tok r, k.moveTo r, marked k ts cs allowed, false, rfl,
    hopt.marked k ts allowed, length_marked hlen k ts allowed, Cursor.rest_moveTo hk,
    fun e => absurd e Bool.false_ne_true⟩

theorem Inside.plainText {w text : List Char} (h : s.Inside ts depth key (w ++ r)) {crossed : Bool}
    (hread : plain (decide (0 < depth)) 0 (w ++ r) = ⟨text, crossed, r⟩) :
    ∃ t, s.plainText = .ok t ∧
      t.Inside (ts ++ [.scalar (text.map .char) true]) depth false r := by
  obtain ⟨k, cs, allowed, rfl, hopt, hlen, hk, -⟩ := h
  have hflow : (flow k ts (marked k ts cs allowed) allowed).inFlow = decide (0 < depth) := by
    simp [inFlow, flow, length_marked hlen]
  have hplain : plain (decide (0 < depth)) ((flow k ts (marked k ts cs allowed) allowed).indent + 1)
      k.rest = ⟨text, crossed, r⟩ := by rw [hk, ← hread]; rfl
  have hcursor : (flow k ts (marked k ts cs allowed) allowed).cursor = k := rfl
  rw [Scan.plainText, markCandidate_flow hopt]
  simp only [bind, Except.bind, pure, Except.pure, hflow, hcursor, hplain]
  exact ⟨_, rfl, k.moveTo r, _, crossed, push_flow (.scalar (text.map .char) true) r,
    hopt.marked k ts allowed, length_marked hlen k ts allowed, Cursor.rest_moveTo hk,
    fun e => absurd e Bool.false_ne_true⟩

/-! ## Keys -/

/-- The colon behind a text makes it a key. -/
theorem token_colon {index line column : Nat} (h : cs ≠ []) (tok : Token) (r : List Char) :
    (flow k (ts ++ [tok]) (some ⟨false, ts.length, index, line, column⟩ :: cs) allowed).token ':'
      r = .ok (flow (k.moveTo r) (ts ++ [.key, tok, .value]) (none :: cs) false) := by
  have hflow : 1 < cs.length + 1 := Nat.succ_lt_succ (List.length_pos_iff.2 h)
  simp [token, colon, flow, candidate, setCandidate, inFlow, hflow, putAt, push, moveTo, pure,
    Except.pure]

theorem token_quote {text : Points} (hread : quotedRest true r [] = .ok (text, rest)) :
    s.token '"' r = s.pushNode (.scalar text false) rest := by
  simp [token, hread, bind, Except.bind]

theorem not_isBreak_spaces (n : Nat) : ∀ c ∈ List.replicate n ' ', isBreak c = false := by
  intro c hc
  rw [List.eq_of_mem_replicate hc]
  rfl

/-- Where a key may start, a text in quotes is remembered from its opening quote on. -/
theorem Inside.markedText {l q : List Char} {text : Points} (hl : IsLayout l) (hq : Quoted q text)
    (h : s.Inside ts depth true (l ++ '"' :: (q ++ '"' :: r))) :
    ∃ (k : Cursor) (cs : List (Option Candidate)) (index column : Nat),
      s.run = (flow k (ts ++ [.scalar text false])
        (some ⟨false, ts.length, index, k.line, column⟩ :: cs) false).run ∧
      Optional cs ∧ cs.length = depth ∧ k.rest = r ∧ k.index = index + (q.length + 2) := by
  obtain ⟨k, cs, allowed, rfl, hopt, hlen, hk, hkey⟩ := h
  obtain ⟨a, ha, hrun⟩ := run_flow ts hk hl (.cons rfl (by decide) (by decide) _) hopt
  cases ha (hkey rfl)
  have hrest := Cursor.rest_moveTo hk
  generalize k.moveTo ('"' :: (q ++ '"' :: r)) = k at hrun hrest
  have hline : k.rest = ('"' :: (q ++ ['"'])) ++ r := by simp [hrest]
  obtain ⟨hindex, hsame⟩ := Cursor.moveTo_index hline (not_isBreak_inQuotes hq)
  have hend := Cursor.rest_moveTo hline
  have hnode : (flow k ts (current k cs) true).token '"' (q ++ '"' :: r) =
      .ok (flow (k.moveTo r) (ts ++ [.scalar text false])
        (marked k ts (current k cs) true) false) := by
    rw [token_quote (quotedRest_quoted hq r []), pushNode_flow (hopt.current k), List.nil_append]
  refine ⟨k.moveTo r, (current k cs).tail, k.index, k.column, ?_, (hopt.current k).tail,
    by simp [length_current, hlen], hend, ?_⟩
  · rw [hrun _ hnode ?_, marked, if_pos rfl, hsame]
    change (k.moveTo r).rest.length ≤ _
    rw [hend, List.length_append, List.length_cons]
    omega
  · rw [hindex]
    simp

/-- On the line of a text, and not too far behind it, the colon makes it a key. -/
theorem run_colon {index column n : Nat} (tok : Token) (hopt : Optional cs)
    (hlen : cs.length = depth + 1) (hk : k.rest = List.replicate n ' ' ++ ':' :: r)
    (hindex : k.index + n ≤ index + 1024) :
    ∃ t : Scan, (flow k (ts ++ [tok]) (some ⟨false, ts.length, index, k.line, column⟩ :: cs)
        false).run = t.run ∧ t.Inside (ts ++ [.key, tok, .value]) (depth + 1) false r := by
  have hopt' : Optional (some ⟨false, ts.length, index, k.line, column⟩ :: cs) := hopt.cons rfl
  obtain ⟨a, -, hrun⟩ := run_flow (ts ++ [tok]) hk (.spaces n)
    (.cons rfl (by decide) (by decide) r) hopt'
  have hrest := Cursor.rest_moveTo hk
  obtain ⟨hindex', hline⟩ := Cursor.moveTo_index hk (not_isBreak_spaces n)
  generalize k.moveTo (':' :: r) = k' at hrun hrest hindex' hline
  rw [List.length_replicate] at hindex'
  have hcurrent := current_cons (c := ⟨false, ts.length, index, k.line, column⟩) cs hline.symm
    (show k'.index ≤ index + 1024 by omega)
  have hcs : current k' cs ≠ [] := by
    rw [← List.length_pos_iff, length_current, hlen]
    exact Nat.succ_pos depth
  refine ⟨_, hrun _ (hcurrent ▸ token_colon hcs tok r) ?_, _, none :: current k' cs, false, rfl,
    (hopt.current k').cons rfl, ?_, Cursor.rest_moveTo (w := [':']) hrest,
    fun e => absurd e Bool.false_ne_true⟩
  · exact Nat.le_of_eq (congrArg List.length (Cursor.rest_moveTo (w := [':']) hrest))
  · rw [List.length_cons, length_current, hlen]

theorem Inside.quotedKey {l q : List Char} {text : Points} {n : Nat} (hl : IsLayout l)
    (hq : Quoted q text) (hn : q.length + 2 + n ≤ 1024)
    (h : s.Inside ts (depth + 1) true
      (l ++ '"' :: (q ++ '"' :: (List.replicate n ' ' ++ ':' :: r)))) :
    ∃ t : Scan, s.run = t.run ∧
      t.Inside (ts ++ [.key, .scalar text false, .value]) (depth + 1) false r := by
  obtain ⟨k, cs, index, column, hrun, hopt, hlen, hk, hindex⟩ := h.markedText hl hq
  obtain ⟨t, hrun', ht⟩ := run_colon (.scalar text false) hopt hlen hk
    (show k.index + n ≤ index + 1024 by omega)
  exact ⟨t, hrun.trans hrun', ht⟩

theorem token_comma (s : Scan) (r : List Char) : s.token ',' r = s.flowEntry r := by simp [token]

/-- A word or a number starts with this character: a digit, a letter, or a sign before a digit. -/
structure StartsBare (c : Char) (r : List Char) : Prop where
  mem : c ∈ bareChars
  ne : c ≠ '.'
  joined : c = '-' → ∃ d t, r = d :: t ∧ Json.isDigit d = true

theorem starts_of_bare {w : List Char} {v : Json} (h : Json.Bare w v) :
    ∃ c r, w = c :: r ∧ StartsBare c r := by
  have hnumber (negative : Bool) {ds : List Char} (h : Json.IsWhole ds) (r : List Char) :
      ∃ c t, Json.sign negative ++ (ds ++ r) = c :: t ∧ StartsBare c t := by
    obtain ⟨d, t, rfl, hd⟩ := h.exists_cons
    cases negative with
    | true => exact ⟨'-', _, rfl, by decide, by decide, fun _ => ⟨d, t ++ r, rfl, hd⟩⟩
    | false =>
      refine ⟨d, _, rfl, mem_bareChars_of_isDigit hd, ?_, ?_⟩
      · rintro rfl
        cases hd
      · rintro rfl
        cases hd
  cases h with
  | word h =>
    simp only [Json.plainWords, List.mem_cons, Prod.mk.injEq, List.not_mem_nil, or_false] at h
    obtain ⟨rfl, -⟩ | ⟨rfl, -⟩ | ⟨rfl, -⟩ := h <;>
      exact ⟨_, _, rfl, by decide, by decide, fun e => absurd e (by decide)⟩
  | whole negative h => simpa using hnumber negative h []
  | decimal negative hd _ _ => exact hnumber negative hd _

namespace StartsBare

variable {c : Char} {r : List Char}

theorem tokenAhead (h : StartsBare c r) (t : List Char) : TokenAhead (c :: t) := by
  have hall : bareChars.all (fun c => Style.isShownAscii c && c != ' ' && c != '#') = true := by
    decide
  have hc := List.all_eq_true.1 hall c h.mem
  simp only [Bool.and_eq_true, bne_iff_ne] at hc
  exact .cons hc.1.1 hc.1.2 hc.2 t

theorem token_eq (h : StartsBare c r) (s : Scan) (t : List Char) :
    s.token c (r ++ t) = s.plainText := by
  by_cases hc : c = '-'
  · -- the sign has a digit joined to it
    obtain ⟨d, r, rfl, hd⟩ := h.joined hc
    have hmem := mem_bareChars_of_isDigit hd
    have hgap : endsOr isGap (d :: r ++ t) = false := by
      have hall : bareChars.all (fun c => !isGap c) = true := by decide
      simpa [endsOr] using List.all_eq_true.1 hall d hmem
    have hsep : atSeparator ('-' :: (d :: r ++ t)) = false := by
      have hne : d ≠ '-' := by
        rintro rfl
        cases hd
      simp [atSeparator, hne]
    subst hc
    rw [List.cons_append] at hgap hsep ⊢
    simp [token, hgap, hsep, startsPlain]
  · have hall : bareChars.all (fun c => c = '-' ||
        !(isGap c || "-?:,[]\x7b\x7d#&*!|>'\"%@\x60".toList.contains c)) = true := by decide
    have hmark := List.all_eq_true.1 hall c h.mem
    simp only [hc, decide_false, Bool.false_or] at hmark
    have hstarts : startsPlain s.inFlow c (r ++ t) = true := by
      rw [startsPlain, hmark]
      rfl
    rw [String.toList_ofList] at hmark
    simp only [Bool.not_eq_true', Bool.or_eq_false_iff, List.contains_cons,
      beq_eq_false_iff_ne] at hmark
    simp [token, hmark, h.ne, hstarts]

end StartsBare

/-- The brackets of a flow collection, and their tokens. -/
inductive Brackets : Char → Char → Token → Token → Prop
  | seq : Brackets '[' ']' .flowSeqStart .flowSeqEnd
  | map : Brackets '\x7b' '\x7d' .flowMapStart .flowMapEnd

namespace Brackets

variable {a b : Char} {first last : Token}

theorem token_first (h : Brackets a b first last) (s : Scan) (r : List Char) :
    s.token a r = s.openFlow first r := by
  cases h <;> simp [token]

theorem token_last (h : Brackets a b first last) (s : Scan) (r : List Char) :
    s.token b r = s.closeFlow last r := by
  cases h <;> simp [token]

theorem tokenAhead_first (h : Brackets a b first last) (r : List Char) : TokenAhead (a :: r) := by
  cases h <;> exact .cons rfl (by decide) (by decide) r

theorem tokenAhead_last (h : Brackets a b first last) (r : List Char) : TokenAhead (b :: r) := by
  cases h <;> exact .cons rfl (by decide) (by decide) r

theorem closes (h : Brackets a b first last) (depth : Nat) (r : List Char) :
    Closes (depth + 1) (b :: r) := by
  refine .inr ⟨Nat.succ_pos depth, b, r, rfl, ?_⟩
  cases h <;> simp

end Brackets

/-! ## Texts -/

/-- In `depth` collections the text comes to the tokens, whatever layout is around it. With `key`,
it has to stand where a key may start. -/
def ScansTo (depth : Nat) (key : Bool) (w : List Char) (ts : List Token) : Prop :=
  ∀ (s : Scan) (us : List Token) (l l' t : List Char), IsLayout l → IsLayout l' → Closes depth t →
    s.Inside us depth key (l ++ (w ++ (l' ++ t))) → ∃ (u : Scan) (l'' : List Char),
      s.run = u.run ∧ IsLayout l'' ∧ u.Inside (us ++ ts) depth false (l'' ++ t)

namespace ScansTo

variable {w w' l : List Char} {ts' : List Token}

theorem nil : ScansTo depth key [] [] := by
  intro s us l l' t hl hl' _ h
  refine ⟨s, l ++ l', rfl, hl.append hl', ?_⟩
  rw [List.append_nil, List.append_assoc]
  exact h.weaken

theorem layout (hl : IsLayout l) (h : ScansTo depth key w ts) : ScansTo depth key (l ++ w) ts := by
  intro s us l₁ l' t hl₁ hl' ht hs
  rw [List.append_assoc, ← List.append_assoc l₁] at hs
  exact h s us (l₁ ++ l) l' t (hl₁.append hl) hl' ht hs

theorem blank (hl : IsLayout l) : ScansTo depth key l [] := by
  have h : ScansTo depth key (l ++ []) [] := layout hl nil
  rwa [List.append_nil] at h

theorem of_false (h : ScansTo depth false w ts) : ScansTo depth true w ts :=
  fun s us l l' t hl hl' ht hs => h s us l l' t hl hl' ht hs.weaken

/-- A text, and behind it nothing or more after a comma. -/
theorem append (h : ScansTo (depth + 1) key w ts) (hl : IsLayout l)
    (h' : ScansTo (depth + 1) false w' ts') (hw' : w' = [] ∨ w'.head? = some ',') :
    ScansTo (depth + 1) key (w ++ (l ++ w')) (ts ++ ts') := by
  intro s us l₁ l' t hl₁ hl' ht hs
  -- where nothing comes behind the text, the layout is passed with it
  have hmiddle : ∃ (u : Scan) (l₂ l₃ : List Char), s.run = u.run ∧ IsLayout l₂ ∧ IsLayout l₃ ∧
      u.Inside (us ++ ts) (depth + 1) false (l₂ ++ (w' ++ (l₃ ++ t))) := by
    cases w' with
    | nil =>
      simp only [List.append_nil, List.append_assoc] at hs
      rw [← List.append_assoc l] at hs
      obtain ⟨u, l₂, hrun, hl₂, hu⟩ := h s us l₁ (l ++ l') t hl₁ (hl.append hl') ht hs
      exact ⟨u, l₂, [], hrun, hl₂, .nil, hu⟩
    | cons c w' =>
      obtain hw' | hw' := hw'
      · cases hw'
      · cases hw'
        simp only [List.append_assoc] at hs
        obtain ⟨u, l₂, hrun, hl₂, hu⟩ :=
          h s us l₁ l _ hl₁ hl (.inr ⟨Nat.succ_pos depth, ',', _, rfl, .inl rfl⟩) hs
        exact ⟨u, l₂, l', hrun, hl₂, hl', hu⟩
  obtain ⟨u, l₂, l₃, hrun, hl₂, hl₃, hu⟩ := hmiddle
  obtain ⟨v, l₄, hrun', hl₄, hv⟩ := h' u _ l₂ l₃ t hl₂ hl₃ ht hu
  exact ⟨v, l₄, hrun.trans hrun', hl₄, by rwa [← List.append_assoc]⟩

theorem comma (h : ScansTo depth true w ts) :
    ScansTo depth false (',' :: w) (.flowEntry :: ts) := by
  intro s us l l' t hl hl' ht hs
  rw [List.cons_append] at hs
  obtain ⟨u, hrun, hu⟩ := hs.run hl (.cons rfl (by decide) (by decide) _) (Nat.le_refl _)
    fun u hu => by
      rw [token_comma]
      exact hu.flowEntry
  obtain ⟨v, l'', hrun', hl'', hv⟩ := h u _ [] l' t .nil hl' ht hu
  exact ⟨v, l'', hrun.trans hrun', hl'', by simpa using hv⟩

/-- The key of a member, and what comes behind its colon. -/
theorem member {q : List Char} {text : Points} {n : Nat} (hq : Quoted q text)
    (hn : q.length + 2 + n ≤ 1024) (h : ScansTo (depth + 1) false w ts) :
    ScansTo (depth + 1) true ('"' :: (q ++ '"' :: (List.replicate n ' ' ++ ':' :: w)))
      ([.key, .scalar text false, .value] ++ ts) := by
  intro s us l l' t hl hl' ht hs
  simp only [List.cons_append, List.append_assoc] at hs
  obtain ⟨u, hrun, hu⟩ := hs.quotedKey hl hq hn
  obtain ⟨v, l'', hrun', hl'', hv⟩ := h u _ [] l' t .nil hl' ht hu
  exact ⟨v, l'', hrun.trans hrun', hl'', by simpa using hv⟩

theorem string {q : List Char} {text : Points} (hq : Quoted q text) :
    ScansTo depth false ('"' :: (q ++ ['"'])) [.scalar text false] := by
  intro s us l l' t hl hl' ht hs
  rw [List.cons_append] at hs
  have htoken (u : Scan) (hu : u.Inside us depth false ('"' :: (q ++ ['"'] ++ (l' ++ t)))) :
      ∃ v, u.token '"' (q ++ ['"'] ++ (l' ++ t)) = .ok v ∧
        v.Inside (us ++ [.scalar text false]) depth false (l' ++ t) := by
    have hread := quotedRest_quoted hq (l' ++ t) []
    rw [List.append_assoc, List.singleton_append, token_quote hread]
    exact hu.pushNode (w := '"' :: (q ++ ['"']))
  obtain ⟨u, hrun, hu⟩ := hs.run hl (.cons rfl (by decide) (by decide) _)
    (by simp only [List.length_append, List.length_cons]; omega) htoken
  exact ⟨u, l', hrun, hl', hu⟩

theorem bare {v : Json} (h : Json.Bare w v) :
    ScansTo depth false w [.scalar (w.map .char) true] := by
  intro s us l l' t hl hl' ht hs
  obtain ⟨c, r, rfl, hc⟩ := starts_of_bare h
  obtain ⟨crossed, hread⟩ := plain_layout (mem_bareChars_of_bare h) hl' ht
  rw [List.cons_append] at hs
  have htoken (u : Scan) (hu : u.Inside us depth false (c :: (r ++ (l' ++ t)))) :
      ∃ v, u.token c (r ++ (l' ++ t)) = .ok v ∧
        v.Inside (us ++ [.scalar ((c :: r).map .char) true]) depth false t := by
    rw [← List.append_assoc, ← List.cons_append] at hu
    rw [← List.append_assoc] at hread
    rw [hc.token_eq]
    exact hu.plainText hread
  obtain ⟨u, hrun, hu⟩ := hs.run hl (hc.tokenAhead _)
    (by simp only [List.length_append]; omega) htoken
  exact ⟨u, [], hrun, .nil, hu⟩

/-- A collection between its brackets. -/
theorem collection {a b : Char} {first last : Token} (hb : Brackets a b first last)
    (h : ScansTo (depth + 1) true w ts) :
    ScansTo depth false (a :: (w ++ [b])) (first :: (ts ++ [last])) := by
  intro s us l l' t hl hl' ht hs
  rw [List.cons_append, List.append_assoc, List.singleton_append] at hs
  obtain ⟨u, hrun, hu⟩ := hs.run hl (hb.tokenAhead_first _) (Nat.le_refl _) fun u hu => by
      rw [hb.token_first]
      exact hu.openFlow
  obtain ⟨v, l₂, hrun', hl₂, hv⟩ :=
    h u _ [] [] (b :: (l' ++ t)) .nil .nil (hb.closes depth _) hu
  obtain ⟨x, hrun'', hx⟩ := hv.run hl₂ (hb.tokenAhead_last _) (Nat.le_refl _) fun u hu => by
      rw [hb.token_last]
      exact hu.closeFlow
  exact ⟨x, l', (hrun.trans hrun').trans hrun'', hl', by simpa using hx⟩

end ScansTo

end Scan
end RouteCompiler.Yaml
