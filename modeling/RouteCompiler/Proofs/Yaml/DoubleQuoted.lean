import Mathlib.Algebra.Group.Nat.Defs
import RouteCompiler.Proofs.Yaml.Quoted
import RouteCompiler.Yaml.Written

/-!
Text between double quotes. Every escape reads back as its character, and a line broken behind a
backslash goes on as if it had not been broken.
-/

namespace RouteCompiler.Yaml

open Written (spaces double lineBreak)

/-! ## Hexadecimal digits -/

theorem hexValue?_toUpper_hexDigit :
    ∀ d, d < 16 → Text.hexValue? (Text.hexDigit d).toUpper = some d := by decide

theorem length_upperHex (w n : Nat) : (Written.upperHex w n).length = w := by
  induction w generalizing n with
  | zero => rfl
  | succ w ih =>
    have h := ih (n / 16)
    simp only [Written.upperHex, List.length_map] at h
    simp [Written.upperHex, Text.hexDigits, h]

theorem foldlM_upperHex (w : Nat) {n : Nat} (h : n < 16 ^ w) :
    (Written.upperHex w n).foldlM (fun v d => (Text.hexValue? d).map (16 * v + ·)) 0 = some n := by
  induction w generalizing n with
  | zero =>
    have : n = 0 := by simpa using h
    subst this
    rfl
  | succ w ih =>
    have hn : n / 16 < 16 ^ w := by
      rw [Nat.pow_succ] at h
      omega
    have hd : Written.upperHex (w + 1) n =
        Written.upperHex w (n / 16) ++ [(Text.hexDigit (n % 16)).toUpper] := by
      simp [Written.upperHex, Text.hexDigits]
    rw [hd, List.foldlM_append, ih hn]
    simp only [List.foldlM_cons, List.foldlM_nil, bind, Option.bind,
      hexValue?_toUpper_hexDigit _ (Nat.mod_lt n (by omega)), Option.map]
    exact congrArg some (Nat.div_add_mod n 16)

theorem hexValue_upperHex {w n : Nat} (h : n < 16 ^ w) (cs : List Char) :
    hexValue w (Written.upperHex w n ++ cs) = some n := by
  have ht : (Written.upperHex w n ++ cs).take w = Written.upperHex w n :=
    List.take_left' (length_upperHex w n)
  simp only [hexValue, ht, length_upperHex, Nat.lt_irrefl, if_false]
  exact foldlM_upperHex w h

/-! ## Escapes -/

theorem codePoint_toNat (c : Char) : codePoint c.toNat = .ok (.char c) := by
  have h := c.valid
  simp only [UInt32.isValidChar, Nat.isValidChar] at h
  have hn : c.toNat < 0xd800 ∨ 0xdfff < c.toNat ∧ c.toNat < 0x110000 := h
  have hchar : ¬ (Point.firstHalf ≤ c.toNat ∧ c.toNat < Point.firstHalf + 0x800) := by
    rw [Point.firstHalf]
    omega
  rw [codePoint, if_neg (by omega), if_neg (by omega), Point.ofNat, dif_neg hchar, Char.ofNat_toNat]

theorem codePoint_half (n : Fin 0x800) : codePoint (Point.firstHalf + n) = .ok (.half n) := by
  have hn := n.isLt
  have hhalf : Point.firstHalf ≤ Point.firstHalf + n.val ∧
      Point.firstHalf + n.val < Point.firstHalf + 0x800 := by omega
  have hlow : Point.firstHalf + n.val < 0x110000 := by
    rw [Point.firstHalf]
    omega
  rw [codePoint, if_neg (by omega), if_neg (by omega), Point.ofNat, dif_pos hhalf]
  simp

theorem escape_code {letter : Char} {w : Nat} (hl : escapes.lookup letter = none)
    (hw : codeEscapes.lookup letter = some w) {n : Nat} (hn : n < 16 ^ w) {p : Point}
    (hp : codePoint n = .ok p) (cs : List Char) :
    escape (letter :: (Written.upperHex w n ++ cs)) = .ok ([p], cs) := by
  have hd : (Written.upperHex w n ++ cs).drop w = cs := List.drop_left' (length_upperHex w n)
  simp only [escape, hl, hw, hexValue_upperHex hn, hd, hp, bind, Except.bind, pure, Except.pure]

theorem mem_of_lookup {α β : Type} [BEq α] [LawfulBEq α] {l : List (α × β)} {a : α} {b : β}
    (h : l.lookup a = some b) : (a, b) ∈ l := by
  obtain ⟨before, after, rfl, -⟩ := List.lookup_eq_some_iff.1 h
  exact List.mem_append_right before List.mem_cons_self

theorem lookup_letterEscapes {c l : Char} (h : Written.letterEscapes.lookup c = some l) :
    escapes.lookup l = some c := by
  have hall : ∀ p ∈ Written.letterEscapes, escapes.lookup p.2 = some p.1 := by decide
  exact hall (c, l) (mem_of_lookup h)

/-- What is written as an escape is read as the point it was written for. -/
theorem escape_of_escape? {p : Point} {e : List Char} (h : Written.escape? p = some e) :
    ∃ e', e = '\\' :: e' ∧ ∀ cs, escape (e' ++ cs) = .ok ([p], cs) := by
  cases p with
  | half n =>
    cases h
    refine ⟨_, rfl, fun cs => escape_code rfl rfl ?_ (codePoint_half n) cs⟩
    rw [Point.firstHalf]
    omega
  | char c =>
    rw [Written.escape?] at h
    split at h
    · rename_i l hl
      cases h
      refine ⟨[l], rfl, fun cs => ?_⟩
      simp only [List.cons_append, List.nil_append, escape, lookup_letterEscapes hl]
    · split at h
      · cases h
      split at h
      · cases h
        refine ⟨_, rfl, fun cs => escape_code rfl rfl ?_ (codePoint_toNat c) cs⟩
        exact Nat.lt_succ_of_le ‹_›
      split at h
      · cases h
        refine ⟨_, rfl, fun cs => escape_code rfl rfl ?_ (codePoint_toNat c) cs⟩
        exact Nat.lt_succ_of_le ‹_›
      · cases h
        refine ⟨_, rfl, fun cs => escape_code rfl rfl ?_ (codePoint_toNat c) cs⟩
        have h := c.valid
        simp only [UInt32.isValidChar, Nat.isValidChar] at h
        simp only [Char.toNat]
        omega

/-- What is not escaped is a character that is shown, and no mark between double quotes. -/
theorem literal_of_escape? {p : Point} (h : Written.escape? p = none) :
    p = .char p.toChar ∧ Style.isShownAscii p.toChar = true ∧ p.toChar ≠ '"' ∧ p.toChar ≠ '\\' := by
  cases p with
  | half n => cases h
  | char c =>
    rw [Written.escape?] at h
    split at h
    · cases h
    · rename_i hl
      split at h
      · refine ⟨rfl, ‹_›, ?_, ?_⟩
        · rintro rfl
          exact absurd hl (by decide)
        · rintro rfl
          exact absurd hl (by decide)
      · split at h
        · cases h
        · split at h <;> cases h

/-! ## Single steps -/

variable {acc : Points}

theorem quotedRest_escape {cs r : List Char} {t : Points} (h : escape cs = .ok (t, r))
    (hl : r.length ≤ cs.length) :
    quotedRest true ('\\' :: cs) acc = quotedRest true r (acc ++ t) := by
  rw [quotedRest.eq_def]
  simp [isGap, isSpaceOrTab, isBreak, h, bind, Except.bind, Nat.lt_succ_of_le hl]

theorem quotedRest_broken {n : Nat} (hn : 0 < n) {cs : List Char} (h : StartsSolid cs) :
    quotedRest true ('\\' :: '\n' :: (spaces n ++ cs)) acc = quotedRest true cs acc := by
  have he : escape ('\n' :: (spaces n ++ cs)) = .ok ([], cs) := by
    have hb : escape ('\n' :: (spaces n ++ cs)) =
        quotedBreaks (spaces n ++ cs) >>= fun x => .ok (x.1.map .char, x.2) := rfl
    rw [hb, quotedBreaks_indented hn h]
    rfl
  rw [quotedRest_escape he (by simp; omega), List.append_nil]

theorem quotedRest_brokenSpace {n : Nat} (hn : 0 < n) (cs : List Char) :
    quotedRest true ((lineBreak n (some ' ')).1 ++ ' ' :: cs) acc =
      quotedRest true cs (acc ++ [.char ' ']) := by
  have hb : (lineBreak n (some ' ')).1 ++ ' ' :: cs =
      '\\' :: '\n' :: (spaces n ++ '\\' :: ' ' :: cs) := by
    simp [lineBreak]
  rw [hb, quotedRest_broken hn (.cons rfl _)]
  exact quotedRest_escape rfl (by simp)

theorem lineBreak_of_ne {n : Nat} {d : Char} (hd : d ≠ ' ') :
    lineBreak n (some d) = ('\\' :: '\n' :: spaces n, n) := by
  simp [lineBreak, hd]

theorem quotedRest_closeDouble (tail : List Char) :
    quotedRest true ('"' :: tail) acc = .ok (acc, tail) := by
  rw [quotedRest.eq_def]
  simp [isGap, isSpaceOrTab, isBreak]

/-! ## What is written -/

section
variable (indent column : Nat) (first fresh : Bool) {p : Point} (r : Points)

/-- An escape, and behind it perhaps a broken line. -/
theorem double_escape {e : List Char} (h : Written.escape? p = some e) :
    (∃ column', double indent column first fresh (p :: r) =
      e ++ double indent column' false true r) ∨
    (r ≠ [] ∧ double indent column first fresh (p :: r) =
      e ++ ((lineBreak indent (r.head?.map Point.toChar)).1 ++
        double indent (lineBreak indent (r.head?.map Point.toChar)).2 false true r)) := by
  rw [double]
  simp only [h]
  split
  · rename_i hb
    refine .inr ⟨?_, by rw [List.append_assoc]⟩
    rintro rfl
    simp at hb
  · exact .inl ⟨_, rfl⟩

/-- A character for itself, and before it perhaps a broken line. -/
theorem double_literal (h : Written.escape? p = none) :
    (∃ column', double indent column first fresh (p :: r) =
      p.toChar :: double indent column' false false r) ∨
    (Written.width < column ∧ ∃ column', double indent column first fresh (p :: r) =
      (lineBreak indent (some p.toChar)).1 ++
        p.toChar :: double indent column' false false r) := by
  rw [double]
  simp only [h]
  split
  · rename_i hb
    simp only [Bool.and_eq_true, decide_eq_true_eq] at hb
    exact .inr ⟨hb.2, _, rfl⟩
  · exact .inl ⟨_, rfl⟩

end

/-! ## What is read -/

section
variable {indent : Nat} {tail : List Char}

/-- At the start of a line, which is never too long, a character stands unless it is escaped. -/
theorem double_solid (hw : indent ≤ Written.width) {p : Point} (hp : p.toChar ≠ ' ')
    (first fresh : Bool) (r : Points) :
    StartsSolid (double indent indent first fresh (p :: r)) := by
  cases he : Written.escape? p with
  | some e =>
    obtain ⟨e', rfl, -⟩ := escape_of_escape? he
    obtain ⟨_, h⟩ | ⟨-, h⟩ := double_escape indent indent first fresh r he
    · rw [h]
      exact .cons rfl _
    · rw [h]
      exact .cons rfl _
  | none =>
    obtain ⟨_, h⟩ | ⟨hlt, -⟩ := double_literal indent indent first fresh r he
    · rw [h]
      refine .cons ?_ _
      rw [isGap_of_isShownAscii (literal_of_escape? he).2.1, decide_eq_false hp]
    · exact absurd hlt (Nat.not_lt.2 hw)

theorem lineEnd?_double (indent : Nat) (tail : List Char) (r : Points) (column : Nat)
    (first fresh : Bool) :
    lineEnd? ((double indent column first fresh r ++ '"' :: tail).dropWhile isSpaceOrTab) =
      none := by
  induction r generalizing column first fresh with
  | nil => rfl
  | cons p r ih =>
    cases he : Written.escape? p with
    | some e =>
      obtain ⟨e', rfl, -⟩ := escape_of_escape? he
      rcases double_escape indent column first fresh r he with ⟨_, h⟩ | ⟨-, h⟩ <;> rw [h] <;> rfl
    | none =>
      obtain ⟨column', h⟩ | ⟨-, column', h⟩ := double_literal indent column first fresh r he
      · rw [h, List.cons_append]
        by_cases hs : p.toChar = ' '
        · rw [hs, List.dropWhile_cons_of_pos rfl]
          exact ih _ _ _
        · have hc : StartsSolid
              (p.toChar :: (double indent column' false false r ++ '"' :: tail)) := by
            refine .cons ?_ _
            rw [isGap_of_isShownAscii (literal_of_escape? he).2.1, decide_eq_false hs]
          rw [hc.dropWhile_eq, hc.lineEnd?_eq]
      · rw [h, lineBreak]
        split <;> rfl

/-- A character that is written as itself. Behind a space, no line end may come. -/
theorem quotedRest_literal {p : Point} {cs : List Char} (h : Written.escape? p = none)
    (hcs : lineEnd? (cs.dropWhile isSpaceOrTab) = none) (acc : Points) :
    quotedRest true (p.toChar :: cs) acc = quotedRest true cs (acc ++ [p]) := by
  obtain ⟨hp, hc, hq, hb⟩ := literal_of_escape? h
  rw [hp]
  by_cases hs : p.toChar = ' '
  · rw [hs]
    exact quotedRest_space hcs
  · have hgap : isGap p.toChar = false := by rw [isGap_of_isShownAscii hc, decide_eq_false hs]
    exact quotedRest_char hgap (fun e => absurd e (by decide)) (fun _ => ⟨hq, hb⟩) cs

theorem quotedRest_brokenLiteral (hi : 0 < indent) {p : Point} {cs : List Char}
    (h : Written.escape? p = none) (hcs : lineEnd? (cs.dropWhile isSpaceOrTab) = none)
    (acc : Points) : quotedRest true ((lineBreak indent (some p.toChar)).1 ++ p.toChar :: cs) acc =
      quotedRest true cs (acc ++ [p]) := by
  obtain ⟨hp, hc, -⟩ := literal_of_escape? h
  by_cases hs : p.toChar = ' '
  · rw [hp, hs]
    exact quotedRest_brokenSpace hi cs
  · have hsolid : StartsSolid (p.toChar :: cs) := by
      refine .cons ?_ cs
      rw [isGap_of_isShownAscii hc, decide_eq_false hs]
    rw [lineBreak_of_ne hs]
    simp only [List.cons_append]
    rw [quotedRest_broken hi hsolid, quotedRest_literal h hcs]

/-- However the text is written, it reads back. -/
def ReadsBack (indent : Nat) (tail : List Char) (s : Points) : Prop :=
  ∀ (column : Nat) (first fresh : Bool) (acc : Points),
    quotedRest true (double indent column first fresh s ++ '"' :: tail) acc = .ok (acc ++ s, tail)

theorem readsBack_literal (hi : 0 < indent) {p : Point} {r : Points}
    (h : Written.escape? p = none) (hr : ReadsBack indent tail r) :
    ReadsBack indent tail (p :: r) := by
  intro column first fresh acc
  have hend (column' : Nat) := lineEnd?_double indent tail r column' false false
  obtain ⟨column', hw⟩ | ⟨-, column', hw⟩ := double_literal indent column first fresh r h
  · rw [hw, List.cons_append, quotedRest_literal h (hend column'), hr, List.append_assoc]
    rfl
  · rw [hw, List.append_assoc, List.cons_append, quotedRest_brokenLiteral hi h (hend column'), hr,
      List.append_assoc]
    rfl

theorem quotedRest_brokenDouble (hi : 0 < indent) (hw : indent < Written.width) {p : Point}
    {r : Points} (hr : ReadsBack indent tail r) (hpr : ReadsBack indent tail (p :: r))
    (acc : Points) :
    quotedRest true ((lineBreak indent (some p.toChar)).1 ++
      (double indent (lineBreak indent (some p.toChar)).2 false true (p :: r) ++ '"' :: tail)) acc =
        .ok (acc ++ p :: r, tail) := by
  by_cases hd : p.toChar = ' '
  · -- the space at the start of the line has a backslash of its own
    obtain rfl : p = .char ' ' := by
      cases p with
      | char c => exact congrArg _ hd
      | half n => exact absurd hd (by simp [Point.toChar])
    have hb : (lineBreak indent (some ' ')).2 = indent + 1 := rfl
    obtain ⟨column', h⟩ | ⟨hlt, -⟩ :=
      double_literal indent (indent + 1) false true r (p := .char ' ') rfl
    · rw [hd, hb, h, List.cons_append, hd, quotedRest_brokenSpace hi, hr, List.append_assoc]
      rfl
    · exact absurd hlt (Nat.not_lt.2 hw)
  · rw [lineBreak_of_ne hd]
    simp only [List.cons_append]
    rw [quotedRest_broken hi ((double_solid (Nat.le_of_lt hw) hd _ _ _).append _)]
    exact hpr _ _ _ _

theorem readsBack_escape (hi : 0 < indent) (hw : indent < Written.width) {p : Point}
    {e : List Char} {r : Points} (h : Written.escape? p = some e) (hr : ReadsBack indent tail r)
    (ht : ReadsBack indent tail r.tail) : ReadsBack indent tail (p :: r) := by
  intro column first fresh acc
  obtain ⟨e', rfl, hesc⟩ := escape_of_escape? h
  have hread (cs : List Char) : quotedRest true ('\\' :: e' ++ cs) acc =
      quotedRest true cs (acc ++ [p]) := quotedRest_escape (hesc cs) (by simp)
  obtain ⟨column', hc⟩ | ⟨hne, hc⟩ := double_escape indent column first fresh r h
  · rw [hc, List.append_assoc, hread, hr, List.append_assoc]
    rfl
  · cases r with
    | nil => exact absurd rfl hne
    | cons q r =>
      rw [List.tail_cons] at ht
      rw [hc, List.append_assoc, hread, List.append_assoc, List.head?_cons, Option.map_some,
        quotedRest_brokenDouble hi hw ht hr, List.append_assoc]
      rfl

/-- Text between double quotes is read back. -/
theorem readsBack (hi : 0 < indent) (hw : indent < Written.width) (tail : List Char) (s : Points) :
    ReadsBack indent tail s := by
  match s with
  | [] =>
    intro column first fresh acc
    rw [double, List.nil_append, List.append_nil]
    exact quotedRest_closeDouble tail
  | p :: r =>
    cases h : Written.escape? p with
    | none => exact readsBack_literal hi h (readsBack hi hw tail r)
    | some e =>
      have hlen : r.tail.length ≤ r.length := by simp
      exact readsBack_escape hi hw h (readsBack hi hw tail r) (readsBack hi hw tail r.tail)
termination_by s.length

end

end RouteCompiler.Yaml
