import RouteCompiler.Proofs.Yaml.Scan

/-!
Scanning a key without its mark: its text is kept as a candidate, and the colon behind it puts the
key in front, with the start of a mapping if the key stands deeper than what is open.
-/

namespace RouteCompiler.Yaml

open Written (spaces)

/-- Text of letters, short enough for a key without its mark. -/
structure IsKey (cs : List Char) : Prop where
  letters : ∀ c ∈ cs, c.isAlpha = true
  nonempty : cs ≠ []
  short : cs.length ≤ 1024

def isKeyText (cs : List Char) : Bool := cs.all Char.isAlpha && !cs.isEmpty && cs.length ≤ 1024

theorem isKey_of_isKeyText {cs : List Char} (h : isKeyText cs = true) : IsKey cs := by
  simp only [isKeyText, Bool.and_eq_true, List.all_eq_true, Bool.not_eq_true', decide_eq_true_eq,
    List.isEmpty_eq_false_iff] at h
  exact ⟨h.1.1, h.1.2, h.2⟩

theorem toNat_of_isAlpha {c : Char} (h : c.isAlpha = true) :
    65 ≤ c.toNat ∧ c.toNat ≤ 90 ∨ 97 ≤ c.toNat ∧ c.toNat ≤ 122 := by
  have hc : (decide (c.val ≥ 'A'.val ∧ c.val ≤ 'Z'.val) ||
      (decide (c.val ≥ 'a'.val) && decide (c.val ≤ 'z'.val))) = true := h
  simpa [UInt32.le_iff_toNat_le] using hc

theorem isShownAscii_of_isAlpha {c : Char} (h : c.isAlpha = true) :
    Style.isShownAscii c = true := by
  have := toNat_of_isAlpha h
  simp only [Style.isShownAscii, Bool.and_eq_true, decide_eq_true_eq]
  omega

theorem ne_of_isAlpha {c d : Char} (h : c.isAlpha = true) (hd : d.isAlpha = false) : c ≠ d := by
  rintro rfl
  rw [h] at hd
  cases hd

theorem isGap_of_isAlpha {c : Char} (h : c.isAlpha = true) : isGap c = false := by
  rw [isGap_of_isShownAscii (isShownAscii_of_isAlpha h), decide_eq_false (ne_of_isAlpha h rfl)]

namespace Scan

variable {k : Cursor} {ts : List Token} {indent : Int} {outer : List Int} {allowed : Bool}
variable {c : Char} {w rest : List Char}

theorem startsPlain_letter (h : c.isAlpha = true) (r : List Char) : StartsPlain c r := by
  refine ⟨isShownAscii_of_isAlpha h, ne_of_isAlpha h rfl, ?_, ?_⟩
  · have hall : Style.openers.all (fun d => !d.isAlpha) = true := by
      rw [openers_eq]
      rfl
    rw [List.contains_eq_mem, decide_eq_false_iff_not]
    intro hc
    have hne := List.all_eq_true.1 hall c hc
    rw [h] at hne
    cases hne
  · rintro (hc | hc | hc)
    · exact absurd hc (ne_of_isAlpha h rfl)
    · exact absurd hc (ne_of_isAlpha h rfl)
    · exact absurd hc (ne_of_isAlpha h rfl)

theorem plainLength_letters (hw : ∀ c ∈ w, c.isAlpha = true) (hr : endsOr isGap rest = true) :
    plainLength false (w ++ ':' :: rest) = w.length := by
  induction w with
  | nil =>
    have hs : plainStops false ':' rest = true := by simp [plainStops, hr]
    rw [List.nil_append, plainLength, if_pos hs]
    rfl
  | cons c w ih =>
    have hc := hw c List.mem_cons_self
    have hs : plainStops false c (w ++ ':' :: rest) = false := by
      simp [plainStops, isGap_of_isAlpha hc, ne_of_isAlpha hc (rfl : ':'.isAlpha = false)]
    rw [List.cons_append, plainLength, if_neg (by rw [hs]; decide),
      ih fun d hd => hw d (List.mem_cons_of_mem c hd)]
    rfl

theorem plain_letters (hc : c.isAlpha = true) (hw : ∀ c ∈ w, c.isAlpha = true)
    (hr : endsOr isGap rest = true) (least : Int) :
    plain false least (c :: (w ++ ':' :: rest)) = ⟨c :: w, false, ':' :: rest⟩ := by
  have hs : plainStops false c (w ++ ':' :: rest) = false := by
    simp [plainStops, isGap_of_isAlpha hc, ne_of_isAlpha hc (rfl : ':'.isAlpha = false)]
  have hg : gap (':' :: rest) = ⟨[], none, false, ':' :: rest⟩ := rfl
  have hh := ne_of_isAlpha hc (rfl : '#'.isAlpha = false)
  rw [plain, plainRuns]
  simp [hh, hs, plainLength_letters hw hr, hg]

/-- A scan that has read a text which may turn out to be a key. -/
def awaiting (k : Cursor) (ts : List Token) (c : Candidate) (indent : Int) (outer : List Int) :
    Scan :=
  ⟨k, ts.toArray, [some c], indent, outer, false⟩

theorem token_letters (hc : c.isAlpha = true) (hw : ∀ c ∈ w, c.isAlpha = true)
    (hr : endsOr isGap rest = true) (hk : k.rest = c :: (w ++ ':' :: rest)) :
    (at_ k ts indent outer true).token c (w ++ ':' :: rest) =
      .ok (awaiting (k.moveTo (':' :: rest)) (ts ++ [.scalar ((c :: w).map .char) true])
        ⟨indent == k.column, ts.length, k.index, k.line, k.column⟩ indent outer) := by
  rw [token_plain (startsPlain_letter hc _) (.inr ⟨ne_of_isAlpha hc rfl, ne_of_isAlpha hc rfl⟩)]
  have hread := plain_letters hc hw hr (indent + 1)
  rw [← hk] at hread
  simp [plainText, markCandidate, dropCandidate, candidate, setCandidate, inFlow, at_, awaiting,
    bind, Except.bind, pure, Except.pure, hread, push, moveTo]

/-- What a key at `column` starts: a mapping, if it is deeper than the one that is open. -/
def opening (indent : Int) (column : Nat) : List Token :=
  if indent < column then [.blockMapStart] else []

def around (indent : Int) (column : Nat) (outer : List Int) : List Int :=
  if indent < column then indent :: outer else outer

theorem colon_awaiting {t : Token} {required : Bool} {index line column : Nat}
    (hi : indent ≤ column) (r : List Char) :
    (awaiting k (ts ++ [t]) ⟨required, ts.length, index, line, column⟩ indent outer).colon r =
      .ok (at_ (k.moveTo r) (ts ++ opening indent column ++ [.key, t, .value]) column
        (around indent column outer) false) := by
  by_cases h : indent < column
  · simp [colon, awaiting, candidate, setCandidate, inFlow, opens, indentTo, putAt, push, moveTo,
      at_, opening, around, h, pure, Except.pure]
  · have he : indent = column := by omega
    simp [colon, awaiting, candidate, setCandidate, inFlow, opens, putAt, push, moveTo,
      at_, opening, around, he, pure, Except.pure]

/-- The colon directly behind the text makes it a key. -/
theorem run_awaiting {t : Token} {required : Bool} {index column : Nat} (hk : k.rest = ':' :: rest)
    (hr : endsOr isGap rest = true) (hi : indent ≤ column) (hcol : column ≤ k.column)
    (hindex : k.index ≤ index + 1024) :
    (awaiting k (ts ++ [t]) ⟨required, ts.length, index, k.line, column⟩ indent outer).run =
      (at_ (k.moveTo rest) (ts ++ opening indent column ++ [.key, t, .value]) column
        (around indent column outer) false).run := by
  have ha : TokenAhead (':' :: rest) := .cons rfl (by decide) (by decide) rest
  generalize hs : awaiting k (ts ++ [t]) ⟨required, ts.length, index, k.line, column⟩ indent
    outer = s
  have hcur : s.cursor = k := by rw [← hs, awaiting]
  have htok : s.toToken = s := toToken_self (by rw [hcur, hk]; exact ha)
  -- the candidate is on this line and at most 1024 characters behind
  have hdrop : s.dropLapsed = .ok s := by
    have hl : lapsed k ⟨required, ts.length, index, k.line, column⟩ = false := by
      simp [lapsed]
      omega
    simp [← hs, dropLapsed, awaiting, hl]
  have hunwind : s.unwind s.cursor.column = s := by
    have hle : ¬ (k.column : Int) < indent := by omega
    simp only [unwind, ← hs, inFlow, awaiting]
    cases outer with
    | nil => rfl
    | cons i o =>
      simp only [List.length_singleton, Nat.lt_irrefl, decide_false, Bool.false_eq_true, if_false,
        closeTo, hle]
  have htoken : s.token ':' rest = s.colon rest := by simp [token, hr]
  rw [← hs, colon_awaiting hi, hs] at htoken
  refine run_eq (c := ':') (r := rest) (by rw [htok, hdrop]) ?_ (by rw [hunwind, htoken]) ?_
  · rw [hunwind, hcur, hk]
  · have hm := Cursor.rest_moveTo (k := k) (w := [':']) (r := rest) hk
    simp [at_, hm, hcur, hk]

theorem Ready.key {s : Scan} {column : Nat} {key : List Char}
    (h : s.Ready ts indent outer true column (key ++ ':' :: rest)) (hkey : IsKey key)
    (hi : indent ≤ column) (hr : endsOr isGap rest = true) :
    ∃ k : Cursor, s.run = (at_ k (ts ++ opening indent column ++
        [.key, .scalar (key.map .char) true, .value]) column (around indent column outer)
          false).run ∧ k.rest = rest ∧ k.column = column + (key.length + 1) := by
  obtain ⟨hletters, hne, hshort⟩ := hkey
  cases key with
  | nil => exact absurd rfl hne
  | cons c w =>
    have hc := hletters c List.mem_cons_self
    have hw : ∀ d ∈ w, d.isAlpha = true := fun d hd => hletters d (List.mem_cons_of_mem c hd)
    obtain ⟨t, hrun, k, hk, hcol, rfl⟩ := h.run (P := fun t => ∃ k : Cursor,
        k.rest = c :: w ++ ':' :: rest ∧ k.column = column ∧
        t = awaiting (k.moveTo (':' :: rest)) (ts ++ [.scalar ((c :: w).map .char) true])
          ⟨indent == k.column, ts.length, k.index, k.line, k.column⟩ indent outer) (by
      intro k hk hcol
      refine ⟨_, token_letters hc hw hr hk, ?_, k, hk, hcol, rfl⟩
      have hm := Cursor.rest_moveTo (k := k) (w := c :: w) (r := ':' :: rest) hk
      simp [awaiting, hm])
    have hmove := Cursor.moveTo_within_line hk fun d hd => isShownAscii_of_isAlpha (hletters d hd)
    have hrest := Cursor.rest_moveTo hk
    have hcolon : (k.moveTo (':' :: rest)).rest = [':'] ++ rest := hrest
    have hmove' := Cursor.moveTo_within_line hcolon (by simp; rfl)
    refine ⟨(k.moveTo (':' :: rest)).moveTo rest, ?_, Cursor.rest_moveTo hcolon, ?_⟩
    · have hline : k.line = (k.moveTo (':' :: rest)).line := by rw [hmove]
      rw [hrun, hline, hcol]
      refine run_awaiting hrest hr hi ?_ ?_
      · rw [hmove]
        simp only [hcol]
        omega
      · rw [hmove]
        simp only
        omega
    · rw [hmove', hmove]
      simp [hcol]
      omega

/-- A key whose value goes on in its line. -/
theorem Ready.key_space {s : Scan} {column : Nat} {key : List Char}
    (h : s.Ready ts indent outer true column (key ++ ':' :: ' ' :: rest)) (hkey : IsKey key)
    (hi : indent ≤ column) (ht : TokenAhead rest) :
    ∃ (t : Scan) (c : Nat), s.run = t.run ∧ column < c ∧ t.Stands (ts ++ opening indent column ++
      [.key, .scalar (key.map .char) true, .value]) column (around indent column outer) false c
        rest := by
  obtain ⟨k, hrun, hk, hcol⟩ := h.key hkey hi rfl
  exact ⟨_, k.column + 1, hrun, by omega, stands_spaces hk ht⟩

/-- A key whose value is on the next line. -/
theorem Ready.key_line {s : Scan} {column n : Nat} {key : List Char}
    (h : s.Ready ts indent outer true column (key ++ ':' :: '\n' :: (spaces n ++ rest)))
    (hkey : IsKey key) (hi : indent ≤ column) (ht : TokenAhead rest) :
    ∃ t : Scan, s.run = t.run ∧ t.Stands (ts ++ opening indent column ++
      [.key, .scalar (key.map .char) true, .value]) column (around indent column outer) true n
        rest := by
  obtain ⟨k, hrun, hk, -⟩ := h.key hkey hi rfl
  exact ⟨_, hrun, stands_line hk ht⟩

/-! ## Entries and items -/

theorem tokenAhead_scalar (w column : Nat) (text : Points) (tail : List Char) :
    TokenAhead (Written.scalar w column text ++ '\n' :: tail) := by
  rw [Written.scalar]
  cases hstyle : Style.ofText text.toList with
  | plain =>
    obtain ⟨-, -, -, -, c, r, htext, hc⟩ := of_allowsPlain (allowsPlain_of_ofText hstyle)
    dsimp only
    rw [htext, plain_solid hc.notSpace]
    exact .cons hc.shown hc.notSpace hc.ne.1 _
  | single => exact .cons rfl (by decide) (by decide) _
  | double => exact .cons rfl (by decide) (by decide) _

variable {s : Scan} {column n : Nat}

def entryTokens (e : String × Points) : List Token :=
  [.key, .scalar e.1 true, .value, scalarToken e.2]

theorem Ready.entry {e : String × Points}
    (h : s.Ready ts indent outer true column (Written.entry column e.1 e.2 ++ (spaces n ++ rest)))
    (hkey : IsKey e.1.toList) (hi : indent ≤ column) (hcol : column + 2 < Written.width)
    (hn : n ≤ column) (ht : TokenAhead rest) (hsep : atSeparator (spaces n ++ rest) = false) :
    ∃ t : Scan, s.run = t.run ∧ t.Stands (ts ++ opening indent column ++ entryTokens e) column
      (around indent column outer) true n rest := by
  generalize hv : Written.scalar (column + 2) (column + (e.1.toList ++ [':', ' ']).length)
    e.2 = v
  have hentry : Written.entry column e.1 e.2 ++ (spaces n ++ rest) =
      e.1.toList ++ ':' :: ' ' :: (v ++ '\n' :: (spaces n ++ rest)) := by
    simp [Written.entry, ← hv]
  rw [hentry] at h
  have hahead : TokenAhead (v ++ '\n' :: (spaces n ++ rest)) := by
    rw [← hv]
    exact tokenAhead_scalar _ _ _ _
  obtain ⟨t, c, hrun, hc, hs⟩ := h.key_space hkey hi hahead
  rw [← hv] at hs
  obtain ⟨u, hrun', hs⟩ :=
    (hs.ready (by omega)).scalar hcol (by omega) (by omega) (by omega) ht hsep
  refine ⟨u, by rw [hrun, hrun'], ?_⟩
  simpa [entryTokens, Points.ofString] using hs

theorem opening_self (column : Nat) : opening column column = [] := by simp [opening]

theorem around_self (column : Nat) (outer : List Int) : around column column outer = outer := by
  simp [around]

theorem tokenAhead_key {key : List Char} (hkey : IsKey key) (tail : List Char) :
    TokenAhead (key ++ tail) := by
  cases key with
  | nil => exact absurd rfl hkey.nonempty
  | cons c w =>
    have hc := hkey.letters c List.mem_cons_self
    exact .cons (isShownAscii_of_isAlpha hc) (ne_of_isAlpha hc rfl) (ne_of_isAlpha hc rfl) _

theorem tokenAhead_entry {i : Nat} {key : String} (hkey : IsKey key.toList) (text : Points)
    (tail : List Char) : TokenAhead (Written.entry i key text ++ tail) := by
  rw [Written.entry, List.append_assoc, List.append_assoc, List.append_assoc]
  exact tokenAhead_key hkey _

theorem Ready.entries {e : String × Points} {es : List (String × Points)}
    (h : s.Ready ts indent outer true column (Written.entry column e.1 e.2 ++
      (es.flatMap (fun e => spaces column ++ Written.entry column e.1 e.2) ++ (spaces n ++ rest))))
    (hkey : ∀ d ∈ e :: es, IsKey d.1.toList) (hi : indent ≤ column) (hpos : 0 < column)
    (hcol : column + 2 < Written.width) (hn : n ≤ column) (ht : TokenAhead rest)
    (hsep : atSeparator (spaces n ++ rest) = false) :
    ∃ t : Scan, s.run = t.run ∧
      t.Stands (ts ++ opening indent column ++ (e :: es).flatMap entryTokens) column
        (around indent column outer) true n rest := by
  induction es generalizing e s ts indent outer with
  | nil =>
    simpa using h.entry (hkey e List.mem_cons_self) hi hcol hn ht hsep
  | cons d es ih =>
    have hd := hkey d (List.mem_cons_of_mem e List.mem_cons_self)
    simp only [List.flatMap_cons, List.append_assoc] at h
    -- the first entry may open the mapping; the others find it open
    obtain ⟨t, hrun, hs⟩ := h.entry (hkey e List.mem_cons_self) hi hcol (Nat.le_refl column)
      (tokenAhead_entry hd _ _) (atSeparator_spaces hpos _)
    obtain ⟨u, hrun', hu⟩ := ih (hs.ready (Int.le_refl _))
      (fun x hx => hkey x (List.mem_cons_of_mem e hx)) (Int.le_refl _)
    rw [opening_self, around_self, List.append_nil] at hu
    refine ⟨u, by rw [hrun, hrun'], ?_⟩
    simpa using hu

/-- The mark of an item of a sequence that is not indented. -/
theorem Ready.item (h : s.Ready ts column outer true column ('-' :: ' ' :: rest))
    (ht : TokenAhead rest) :
    ∃ t : Scan, s.run = t.run ∧
      t.Stands (ts ++ [.blockEntry]) column outer true (column + 2) rest := by
  refine h.run ?_
  intro k hk hc
  have hsep : atSeparator ('-' :: ' ' :: rest) = false := by
    simp only [atSeparator]
    split
    · rename_i heq
      simp at heq
    · rename_i heq
      simp at heq
    · rfl
  have htok : (at_ k ts column outer true).token '-' (' ' :: rest) =
      .ok (at_ (k.moveTo (' ' :: rest)) (ts ++ [.blockEntry]) column outer true) := by
    have hgap : endsOr isGap (' ' :: rest) = true := rfl
    simp [token, hsep, hgap, blockEntry, blockStart, dropCandidate, candidate, setCandidate, opens,
      inFlow, at_, push, moveTo, hc, bind, Except.bind, pure, Except.pure]
  have hone : k.rest = ['-'] ++ ' ' :: rest := hk
  have hrest : (k.moveTo (' ' :: rest)).rest = spaces 1 ++ rest := Cursor.rest_moveTo hone
  have hcol : (k.moveTo (' ' :: rest)).column = column + 1 := by
    rw [Cursor.moveTo_within_line hone (by simp; rfl), ← hc]
    rfl
  have hs : (at_ (k.moveTo (' ' :: rest)) (ts ++ [.blockEntry]) column outer true).Stands _ _ _ _
      ((k.moveTo (' ' :: rest)).column + 1) rest := stands_spaces hrest ht
  rw [hcol] at hs
  refine ⟨_, htok, ?_, hs⟩
  simp [at_, hrest, spaces]

/-- A scan inside a flow collection that has just started. -/
def inside (k : Cursor) (ts : List Token) (indent : Int) (outer : List Int) : Scan :=
  ⟨k, ts.toArray, [none, none], indent, outer, true⟩

theorem token_openSeq (r : List Char) : (at_ k ts indent outer false).token '[' r =
    .ok (inside (k.moveTo r) (ts ++ [.flowSeqStart]) indent outer) := by
  have hopen : (at_ k ts indent outer false).token '[' r =
      (at_ k ts indent outer false).openFlow .flowSeqStart r := by simp [token]
  rw [hopen, openFlow, markCandidate_at]
  simp [bind, Except.bind, pure, Except.pure, push, moveTo, at_, inside]

theorem run_closeSeq (hk : k.rest = ']' :: rest) : (inside k ts indent outer).run =
    (at_ (k.moveTo rest) (ts ++ [.flowSeqEnd]) indent outer false).run := by
  have hahead : TokenAhead k.rest := by
    rw [hk]
    exact .cons rfl (by decide) (by decide) rest
  have hdrop : (inside k ts indent outer).dropLapsed = .ok (inside k ts indent outer) := by
    simp [dropLapsed, inside]
  have hunwind (c : Int) : (inside k ts indent outer).unwind c = inside k ts indent outer := by
    simp [unwind, inFlow, inside]
  have htoken : (inside k ts indent outer).token ']' rest =
      .ok (at_ (k.moveTo rest) (ts ++ [.flowSeqEnd]) indent outer false) := by
    simp [token, closeFlow, dropCandidate, candidate, setCandidate, inFlow, bind, Except.bind, pure,
      Except.pure, push, moveTo, at_, inside]
  refine run_eq (by rw [toToken_self hahead, hdrop]) (by rw [hunwind]; exact hk)
    (by rw [hunwind, htoken]) ?_
  have hrest := Cursor.rest_moveTo (k := k) (w := [']']) hk
  simp [at_, inside, hrest, hk]

theorem Ready.emptySeq
    (h : s.Ready ts indent outer false column ('[' :: ']' :: '\n' :: (spaces n ++ rest)))
    (ht : TokenAhead rest) :
    ∃ t : Scan, s.run = t.run ∧
      t.Stands (ts ++ [.flowSeqStart, .flowSeqEnd]) indent outer true n rest := by
  obtain ⟨t, hrun, k, hk, rfl⟩ := h.run (P := fun t => ∃ k : Cursor,
      k.rest = ']' :: '\n' :: (spaces n ++ rest) ∧
      t = inside k (ts ++ [.flowSeqStart]) indent outer) (by
    intro k hk _
    have hrest := Cursor.rest_moveTo (k := k) (w := ['[']) hk
    exact ⟨_, token_openSeq _, by simp [inside, hrest], _, hrest, rfl⟩)
  have hrest := Cursor.rest_moveTo (k := k) (w := [']']) hk
  rw [run_closeSeq hk, List.append_assoc] at hrun
  exact ⟨_, hrun, stands_line hrest ht⟩

/-! ## Where a document ends -/

theorem closeTo_with_outer (c : Int) (o : List Int) :
    closeTo c { s with outer := o } outer = closeTo c s outer := by
  induction outer generalizing s o with
  | nil => rfl
  | cons i r ih =>
    simp only [closeTo]
    split
    · exact ih (s := { s.push .blockEnd with indent := i }) o
    · rfl

/-- Closing in two steps is closing at once. -/
theorem closeTo_closeTo {c d : Int} (h : d ≤ c) :
    closeTo d (closeTo c s outer) (closeTo c s outer).outer = closeTo d s outer := by
  induction outer generalizing s with
  | nil => rfl
  | cons i r ih =>
    rw [closeTo]
    split
    · rename_i hc
      rw [ih, closeTo, if_pos (by omega)]
    · exact closeTo_with_outer d (i :: r)

theorem closeTo_all (k : Cursor) (allowed : Bool) (ts : List Token) (indent : Int) (o : List Int)
    (hl : ∀ i ∈ (indent :: outer).dropLast, 0 ≤ i) :
    ∃ last, closeTo (-1) (at_ k ts indent o allowed) outer =
      at_ k (ts ++ List.replicate outer.length .blockEnd) last [] allowed := by
  induction outer generalizing ts indent o with
  | nil => exact ⟨indent, by simp [closeTo, at_]⟩
  | cons i r ih =>
    have hi : 0 ≤ indent := hl indent (by simp)
    obtain ⟨last, h⟩ := ih (ts ++ [.blockEnd]) i o fun j hj => hl j (by simp [hj])
    refine ⟨last, ?_⟩
    rw [closeTo_of_lt (by omega), h, List.length_cons, List.replicate_succ, List.append_assoc]
    rfl

/-- Closing collections leaves all else as it is. -/
theorem closeTo_frame (c : Int) (s : Scan) (outer : List Int) :
    (closeTo c s outer).cursor = s.cursor ∧ (closeTo c s outer).candidates = s.candidates := by
  induction outer generalizing s with
  | nil => exact ⟨rfl, rfl⟩
  | cons i r ih =>
    rw [closeTo]
    split
    · exact ih { s.push .blockEnd with indent := i }
    · exact ⟨rfl, rfl⟩

theorem unwind_unwind {c d : Int} (h : d ≤ c) (s : Scan) :
    (s.unwind c).unwind d = s.unwind d := by
  cases hflow : s.inFlow with
  | true => simp [unwind, hflow]
  | false =>
    have hflow' : (closeTo c s s.outer).inFlow = false := by
      rw [inFlow, (closeTo_frame c s s.outer).2, ← inFlow, hflow]
    simp [unwind, hflow, hflow', closeTo_closeTo h]

theorem Stands.run_end (h : s.Stands ts indent outer allowed column [])
    (hl : ∀ i ∈ (indent :: outer).dropLast, 0 ≤ i) :
    s.run = ((ts ++ List.replicate outer.length Token.blockEnd).toArray, none) := by
  obtain ⟨k, hk, hr, -, -⟩ := h
  obtain ⟨last, hclose⟩ := closeTo_all k allowed ts indent outer hl
  have hrest : ((at_ k ts indent outer allowed).unwind k.column).cursor.rest = [] := by
    rw [unwind_at, (closeTo_frame _ _ _).1]
    exact hr
  have hend : ((at_ k ts indent outer allowed).unwind k.column).unwind (-1) =
      at_ k (ts ++ List.replicate outer.length .blockEnd) last [] allowed := by
    rw [unwind_unwind (by omega), unwind_at, hclose]
  rw [run, hk, dropLapsed_at]
  dsimp only
  split
  · rw [show (at_ k ts indent outer allowed).cursor.column = k.column from rfl, hend]
    simp [dropCandidate, candidate, setCandidate, at_]
  · rename_i heq
    rw [show (at_ k ts indent outer allowed).cursor.column = k.column from rfl, hrest] at heq
    cases heq

end Scan
end RouteCompiler.Yaml
