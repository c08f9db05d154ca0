import RouteCompiler.Proofs.Yaml.DoubleQuoted
import RouteCompiler.Proofs.Yaml.SingleQuoted
import RouteCompiler.Proofs.Yaml.Style

/-!
Whatever a text holds, it is written in shown ASCII characters and line feeds.
-/

namespace RouteCompiler.Yaml

open Written (spaces folded double lineBreak)

/-- Only shown ASCII characters and line feeds. -/
def IsPlainText (cs : List Char) : Prop := ∀ c ∈ cs, isPlainAscii c = true

namespace IsPlainText

variable {a b cs : List Char} {c : Char}

theorem append (ha : IsPlainText a) (hb : IsPlainText b) : IsPlainText (a ++ b) := by
  intro c hc
  obtain hc | hc := List.mem_append.1 hc
  · exact ha c hc
  · exact hb c hc

theorem cons (hc : isPlainAscii c = true) (h : IsPlainText cs) : IsPlainText (c :: cs) := by
  intro d hd
  obtain rfl | hd := List.mem_cons.1 hd
  · exact hc
  · exact h d hd

theorem tail (h : IsPlainText (c :: cs)) : IsPlainText cs :=
  fun d hd => h d (List.mem_cons_of_mem c hd)

theorem flatMap {α : Type} {l : List α} {f : α → List Char} (h : ∀ x ∈ l, IsPlainText (f x)) :
    IsPlainText (l.flatMap f) := by
  intro c hc
  obtain ⟨x, hx, hc⟩ := List.mem_flatMap.1 hc
  exact h x hx c hc

theorem spaces (n : Nat) : IsPlainText (spaces n) := by
  intro c hc
  rw [List.eq_of_mem_replicate hc]
  rfl

end IsPlainText

variable {cs : List Char}

theorem isPlainText_plain (indent column : Nat) (previous : Char) (h : IsPlainText cs) :
    IsPlainText (Written.plain indent column previous cs) := by
  induction cs generalizing column previous with
  | nil => exact h
  | cons c r ih =>
    rw [Written.plain]
    split
    · exact .cons rfl (.append (.spaces indent) (ih _ _ h.tail))
    · exact .cons (h c List.mem_cons_self) (ih _ _ h.tail)

theorem isPlainText_folded (indent column : Nat) (previous : Char) (h : IsPlainText cs) :
    IsPlainText (folded indent column previous cs) := by
  induction cs generalizing column previous with
  | nil => exact h
  | cons c r ih =>
    have hbreaks : IsPlainText (if previous = '\n' then ['\n'] else ['\n', '\n']) := by
      split
      · exact .cons rfl (fun _ h => by cases h)
      · exact .cons rfl (.cons rfl (fun _ h => by cases h))
    rw [folded]
    split
    · split
      · exact .cons rfl (.append (.spaces indent) (ih _ _ h.tail))
      · exact .cons rfl (ih _ _ h.tail)
    · split
      · refine hbreaks.append ?_
        split
        · exact ih _ _ h.tail
        · exact .append (.spaces indent) (ih _ _ h.tail)
      · split
        · exact .cons rfl (.cons rfl (ih _ _ h.tail))
        · exact .cons (h c List.mem_cons_self) (ih _ _ h.tail)

/-! ## Escapes -/

theorem isPlainText_upperHex (w n : Nat) : IsPlainText (Written.upperHex w n) := by
  have hdigit : ∀ d, d < 16 → isPlainAscii (Text.hexDigit d).toUpper = true := by decide
  induction w generalizing n with
  | zero => exact fun _ h => by cases h
  | succ w ih =>
    have h := ih (n / 16)
    simp only [Written.upperHex] at h
    simp only [Written.upperHex, Text.hexDigits, List.map_append]
    refine h.append (.cons (hdigit _ (Nat.mod_lt n (by omega))) fun _ h => by cases h)

theorem isPlainText_escape {p : Point} {e : List Char} (h : Written.escape? p = some e) :
    IsPlainText e := by
  have hcode (letter : Char) (hl : isPlainAscii letter = true) (w n : Nat) :
      IsPlainText ('\\' :: letter :: Written.upperHex w n) :=
    .cons rfl (.cons hl (isPlainText_upperHex w n))
  have hletters : ∀ p ∈ Written.letterEscapes, isPlainAscii p.2 = true := by decide
  cases p with
  | half n =>
    cases h
    exact hcode 'u' rfl _ _
  | char c =>
    rw [Written.escape?] at h
    split at h
    next l hl =>
      cases h
      exact .cons rfl (.cons (hletters (c, l) (mem_of_lookup hl)) fun _ h => by cases h)
    next =>
      split at h
      · cases h
      split at h
      · cases h
        exact hcode 'x' rfl _ _
      split at h
      · cases h
        exact hcode 'u' rfl _ _
      · cases h
        exact hcode 'U' rfl _ _

theorem isPlainText_lineBreak (indent : Nat) (next : Option Char) :
    IsPlainText (lineBreak indent next).1 := by
  have hb : IsPlainText ('\\' :: '\n' :: spaces indent) :=
    .cons rfl (.cons rfl (.spaces indent))
  unfold lineBreak
  dsimp only
  split
  · exact hb.append (.cons rfl fun _ h => by cases h)
  · exact hb

theorem isPlainText_double (indent column : Nat) (first fresh : Bool) (s : Points) :
    IsPlainText (double indent column first fresh s) := by
  induction s generalizing column first fresh with
  | nil => exact fun _ h => by cases h
  | cons p r ih =>
    cases he : Written.escape? p with
    | some e =>
      obtain ⟨column', h⟩ | ⟨-, h⟩ := double_escape indent column first fresh r he
      · rw [h]
        exact (isPlainText_escape he).append (ih _ _ _)
      · rw [h]
        exact (isPlainText_escape he).append ((isPlainText_lineBreak _ _).append (ih _ _ _))
    | none =>
      have hc : isPlainAscii p.toChar = true := by
        simp [isPlainAscii, (literal_of_escape? he).2.1]
      obtain ⟨column', h⟩ | ⟨-, column', h⟩ := double_literal indent column first fresh r he
      · rw [h]
        exact .cons hc (ih _ _ _)
      · rw [h]
        exact (isPlainText_lineBreak _ _).append (.cons hc (ih _ _ _))

/-! ## Texts -/

theorem isPlainText_scalar (indent column : Nat) (s : Points) :
    IsPlainText (Written.scalar indent column s) := by
  have hquote (q : Char) (hq : isPlainAscii q = true) : IsPlainText [q] :=
    .cons hq fun _ h => by cases h
  rw [Written.scalar]
  cases hstyle : Style.ofText s.toList with
  | plain =>
    have h := allowsPlain_of_ofText hstyle
    refine isPlainText_plain _ _ _ ?_
    intro c hc
    simp [isPlainAscii, (of_allowsPlain h).1 c hc]
  | single =>
    have h := allowsSingle_of_ofText hstyle
    simp only [Style.allowsSingle, Bool.and_eq_true, List.all_eq_true] at h
    exact .cons rfl ((isPlainText_folded _ _ _ h.1).append (hquote _ rfl))
  | double => exact .cons rfl ((isPlainText_double _ _ _ _ _).append (hquote _ rfl))

theorem isPlainText_entry (indent : Nat) {key : String} (h : IsPlainText key.toList)
    (text : Points) : IsPlainText (Written.entry indent key text) := by
  have hmark : IsPlainText [':', ' '] := .cons rfl (.cons rfl fun _ h => by cases h)
  have hend : IsPlainText ['\n'] := .cons rfl fun _ h => by cases h
  exact ((h.append hmark).append (isPlainText_scalar _ _ _)).append hend

/-! ## Bytes -/

theorem toNat_of_isPlainAscii {c : Char} (h : isPlainAscii c = true) : c.toNat < 128 := by
  simp only [isPlainAscii, Bool.or_eq_true, decide_eq_true_eq] at h
  obtain h | rfl := h
  · have := (toNat_of_isShownAscii h).2
    omega
  · decide

theorem isAllowed_of_isPlainAscii {c : Char} (h : isPlainAscii c = true) : isAllowed c = true := by
  simp only [isPlainAscii, Bool.or_eq_true, decide_eq_true_eq] at h
  obtain h | rfl := h
  · have := toNat_of_isShownAscii h
    simp [isAllowed, this]
  · rfl

theorem toUTF8_ascii {s : String} (h : ∀ c ∈ s.toList, c.toNat < 128) :
    ∀ b ∈ s.toUTF8.data, b < 128 := by
  intro b hb
  have hs : s.toUTF8.data = (s.toList.flatMap String.utf8EncodeChar).toArray := by
    have hbytes := String.toByteArray_ofList (l := s.toList)
    rw [String.ofList_toList] at hbytes
    rw [String.toUTF8_eq_toByteArray, hbytes, List.utf8Encode, List.data_toByteArray]
  rw [hs, List.mem_toArray, List.mem_flatMap] at hb
  obtain ⟨c, hc, hb⟩ := hb
  have hn : c.val.toNat ≤ 127 := Nat.le_of_lt_succ (h c hc)
  rw [String.utf8EncodeChar] at hb
  simp only [hn, if_true, List.mem_singleton] at hb
  rw [hb, UInt8.lt_iff_toNat_lt, UInt8.toNat_ofNat']
  exact Nat.lt_of_le_of_lt (Nat.mod_le _ _) (Nat.lt_succ_of_le hn)

end RouteCompiler.Yaml
