import RouteCompiler.Proofs.Json.Spelling
import RouteCompiler.Proofs.Yaml.DoubleQuoted

/-!
Strings of JSON text as double-quoted scalars. Their escapes are among those of YAML, and no line
ends in them, so that both readers take the same text from them unless JSON joins two halves.
-/

namespace RouteCompiler.Yaml

open Json (Quoted standsForItself)

/-! ## Characters -/

structure StandsForItself (c : Char) : Prop where
  allowed : isAllowed c = true
  notBreak : isBreak c = false
  notTab : c ≠ '\t'
  notQuote : c ≠ '"'
  notBackslash : c ≠ '\\'

theorem standsForItself_iff {c : Char} : standsForItself c = true ↔ StandsForItself c := by
  simp only [standsForItself, Bool.and_eq_true, decide_eq_true_eq, Bool.not_eq_true']
  constructor
  · rintro ⟨⟨⟨⟨h₁, h₂⟩, h₃⟩, h₄⟩, h₅⟩
    exact ⟨h₁, h₂, h₃, h₄, h₅⟩
  · rintro ⟨h₁, h₂, h₃, h₄, h₅⟩
    exact ⟨⟨⟨⟨h₁, h₂⟩, h₃⟩, h₄⟩, h₅⟩

theorem toNat_of_hexValue? {c : Char} {n : Nat} (h : Text.hexValue? c = some n) :
    n < 16 ∧ 0x30 ≤ c.toNat ∧ c.toNat ≤ 0x66 := by
  have hle (a b : Char) : a ≤ b ↔ a.toNat ≤ b.toNat := by
    simp [Char.le_def, UInt32.le_iff_toNat_le]
  simp only [Text.hexValue?, Bool.and_eq_true, decide_eq_true_eq, hle, Char.reduceToNat] at h
  split at h
  · cases h
    omega
  split at h
  · cases h
    omega
  split at h
  · cases h
    omega
  · cases h

/-- The four digits of a unit, and what they come to. -/
theorem hexDigits_of_hex4 {ds : List Char} {n : Nat} (hl : ds.length = 4)
    (hn : Json.hex4 ds = some n) :
    ∃ a b c d, ds.map Text.hexValue? = [some a, some b, some c, some d] ∧
      n = ((a * 16 + b) * 16 + c) * 16 + d ∧ a < 16 ∧ b < 16 ∧ c < 16 ∧ d < 16 := by
  match ds, hl with
  | [w, x, y, z], _ =>
    simp only [Json.hex4, bind, Option.bind] at hn
    cases hw : Text.hexValue? w with
    | none => simp [hw] at hn
    | some a =>
      cases hx : Text.hexValue? x with
      | none => simp [hw, hx] at hn
      | some b =>
        cases hy : Text.hexValue? y with
        | none => simp [hw, hx, hy] at hn
        | some c =>
          cases hz : Text.hexValue? z with
          | none => simp [hw, hx, hy, hz] at hn
          | some d =>
            simp only [hw, hx, hy, hz, pure, Option.some.injEq] at hn
            exact ⟨a, b, c, d, by simp [hw, hx, hy, hz], hn.symm, (toNat_of_hexValue? hw).1,
              (toNat_of_hexValue? hx).1, (toNat_of_hexValue? hy).1, (toNat_of_hexValue? hz).1⟩

theorem hexValue_of_hex4 {ds : List Char} {n : Nat} (hl : ds.length = 4)
    (hn : Json.hex4 ds = some n) (r : List Char) : hexValue 4 (ds ++ r) = some n ∧ n < 0x10000 := by
  obtain ⟨a, b, c, d, hds, rfl, ha, hb, hc, hd⟩ := hexDigits_of_hex4 hl hn
  match ds, hl with
  | [w, x, y, z], _ =>
    simp only [List.map_cons, List.map_nil, List.cons.injEq, and_true] at hds
    obtain ⟨hw, hx, hy, hz⟩ := hds
    refine ⟨?_, by omega⟩
    simp only [hexValue, List.cons_append, List.nil_append, List.take, List.length_cons,
      List.length_nil, List.foldlM_cons, List.foldlM_nil, hw, hx, hy, hz, Option.map, bind,
      Option.bind, pure]
    rw [if_neg (by omega)]
    congr 1
    omega

/-! ## Escapes -/

theorem escapes_of_unescape {c d : Char} (h : Json.unescape c = some d) :
    escapes.lookup c = some d := by
  simp only [Json.unescape] at h
  split at h <;> first | (cases h; rfl) | cases h

theorem escape_unit {ds : List Char} {n : Nat} (hl : ds.length = 4) (hn : Json.hex4 ds = some n)
    (r : List Char) : escape ('u' :: (ds ++ r)) = .ok ([.ofNat n], r) := by
  obtain ⟨hvalue, hlt⟩ := hexValue_of_hex4 hl hn r
  have hletter : escapes.lookup 'u' = none := rfl
  have hwidth : codeEscapes.lookup 'u' = some 4 := rfl
  have hpoint : codePoint n = .ok (.ofNat n) := by
    rw [codePoint, if_neg (by omega), if_neg (by omega)]
  simp only [escape, hletter, hwidth, hvalue, hpoint, List.drop_left' hl, bind, Except.bind, pure,
    Except.pure]

/-! ## Strings -/

section
variable {cs : List Char} {text : Points}

/-- Behind the blanks of a string comes more of it, and not the end of its line. -/
theorem lineEnd?_quoted (h : Quoted cs text) (r : List Char) :
    lineEnd? ((cs ++ '"' :: r).dropWhile isSpaceOrTab) = none := by
  induction h with
  | nil => rfl
  | @char c cs text hc _ ih =>
    have hc := standsForItself_iff.1 hc
    rw [List.cons_append]
    by_cases hs : c = ' '
    · subst hs
      rwa [List.dropWhile_cons_of_pos rfl]
    · rw [List.dropWhile_cons_of_neg (by simp [isSpaceOrTab, hs, hc.notTab])]
      exact lineEnd?_of_not_isBreak hc.notBreak
  | escape _ _ _ | unit _ _ _ _ _ => rfl

theorem quotedRest_itself {c : Char} {r : List Char} {acc : Points} (hc : StandsForItself c)
    (hr : lineEnd? (r.dropWhile isSpaceOrTab) = none) :
    quotedRest true (c :: r) acc = quotedRest true r (acc ++ [.char c]) := by
  by_cases hs : c = ' '
  · subst hs
    exact quotedRest_space hr
  · refine quotedRest_char ?_ (fun e => absurd e (by decide))
      (fun _ => ⟨hc.notQuote, hc.notBackslash⟩) r
    simp [isGap, isSpaceOrTab, hs, hc.notTab, hc.notBreak]

/-- A string of JSON text reads as the text it stands for. -/
theorem quotedRest_quoted (h : Quoted cs text) (r : List Char) (acc : Points) :
    quotedRest true (cs ++ '"' :: r) acc = .ok (acc ++ text, r) := by
  induction h generalizing acc with
  | nil => rw [List.nil_append, quotedRest_closeDouble, List.append_nil]
  | char hc h ih =>
    rw [List.cons_append, quotedRest_itself (standsForItself_iff.1 hc) (lineEnd?_quoted h r), ih,
      List.append_assoc]
    rfl
  | @escape c d cs text hc _ ih =>
    have he : escape (c :: (cs ++ '"' :: r)) = .ok ([.char d], cs ++ '"' :: r) := by
      simp only [Yaml.escape, escapes_of_unescape hc]
    rw [List.cons_append, List.cons_append, quotedRest_escape he (by simp), ih, List.append_assoc]
    rfl
  | @unit n ds cs text hl hn _ _ ih =>
    rw [List.cons_append, List.cons_append, List.append_assoc,
      quotedRest_escape (escape_unit hl hn _) (by simp; omega), ih, List.append_assoc]
    rfl

/-- Shown characters are allowed and end no line. -/
theorem isAllowed_shown {c : Char} (h : Style.isShownAscii c = true) :
    isAllowed c = true ∧ isBreak c = false := by
  refine ⟨?_, not_isBreak_of_isShownAscii h⟩
  obtain ⟨h₁, h₂⟩ := toNat_of_isShownAscii h
  simp [isAllowed, h₁, h₂]

theorem isAllowed_hex4 {ds : List Char} {n : Nat} (hl : ds.length = 4)
    (hn : Json.hex4 ds = some n) : ∀ c ∈ ds, isAllowed c = true ∧ isBreak c = false := by
  intro c hc
  obtain ⟨a, b, x, d, hds, -⟩ := hexDigits_of_hex4 hl hn
  have hsome : ∃ v, Text.hexValue? c = some v := by
    have hmem : Text.hexValue? c ∈ ds.map Text.hexValue? := List.mem_map_of_mem hc
    rw [hds] at hmem
    simp only [List.mem_cons, List.not_mem_nil, or_false] at hmem
    obtain h | h | h | h := hmem <;> exact ⟨_, h⟩
  obtain ⟨v, hv⟩ := hsome
  obtain ⟨-, h₁, h₂⟩ := toNat_of_hexValue? hv
  refine isAllowed_shown ?_
  simp only [Style.isShownAscii, Bool.and_eq_true, decide_eq_true_eq]
  omega

theorem isAllowed_unescape {c d : Char} (h : Json.unescape c = some d) :
    isAllowed c = true ∧ isBreak c = false := by
  refine isAllowed_shown ?_
  simp only [Json.unescape] at h
  split at h <;> first | rfl | cases h

/-- The characters of a string of JSON text can stand in YAML text, and end no line. -/
theorem isAllowed_quoted (h : Quoted cs text) :
    ∀ c ∈ cs, isAllowed c = true ∧ isBreak c = false := by
  induction h with
  | nil => simp
  | char hc _ ih =>
    have hc := standsForItself_iff.1 hc
    simpa using ⟨⟨hc.allowed, hc.notBreak⟩, ih⟩
  | escape hc _ ih => simpa using ⟨isAllowed_shown rfl, isAllowed_unescape hc, ih⟩
  | unit hl hn _ _ ih =>
    intro c hc
    simp only [List.mem_cons, List.mem_append] at hc
    obtain rfl | rfl | hc | hc := hc
    · exact isAllowed_shown rfl
    · exact isAllowed_shown rfl
    · exact isAllowed_hex4 hl hn c hc
    · exact ih c hc

theorem not_isBreak_inQuotes (h : Quoted cs text) :
    ∀ c ∈ '"' :: (cs ++ ['"']), isBreak c = false := by
  intro c hc
  simp only [List.mem_cons, List.mem_append, List.not_mem_nil, or_false] at hc
  obtain rfl | hc | rfl := hc
  · rfl
  · exact (isAllowed_quoted h c hc).2
  · rfl

end

end RouteCompiler.Yaml
