import RouteCompiler.Yaml.Cursor
import RouteCompiler.Yaml.Written

/-!
Moving a cursor over text that was written: within a line the column counts characters, and behind
a line feed and spaces it is the number of spaces, wherever the cursor came from.
-/

namespace RouteCompiler.Yaml

/-- What documents are written in: shown ASCII characters and line feeds. -/
def isPlainAscii (c : Char) : Bool := Style.isShownAscii c || c = '\n'

theorem toNat_of_isShownAscii {c : Char} (h : Style.isShownAscii c = true) :
    0x20 ≤ c.toNat ∧ c.toNat ≤ 0x7e := by
  simpa [Style.isShownAscii] using h

theorem ne_of_toNat_ne {c d : Char} (h : c.toNat ≠ d.toNat) : c ≠ d := fun e => h (e ▸ rfl)

theorem not_isBreak_of_isShownAscii {c : Char} (h : Style.isShownAscii c = true) :
    isBreak c = false := by
  have ⟨h₁, h₂⟩ := toNat_of_isShownAscii h
  have h₃ : c ≠ '\n' := ne_of_toNat_ne (by simp only [Char.reduceToNat]; omega)
  have h₄ : c ≠ '\r' := ne_of_toNat_ne (by simp only [Char.reduceToNat]; omega)
  have h₅ : c ≠ '\x85' := ne_of_toNat_ne (by simp only [Char.reduceToNat]; omega)
  have h₆ : c ≠ '\u2028' := ne_of_toNat_ne (by simp only [Char.reduceToNat]; omega)
  have h₇ : c ≠ '\u2029' := ne_of_toNat_ne (by simp only [Char.reduceToNat]; omega)
  simp [isBreak, h₃, h₄, h₅, h₆, h₇]

theorem isGap_of_isShownAscii {c : Char} (h : Style.isShownAscii c = true) :
    isGap c = decide (c = ' ') := by
  have ⟨h₁, h₂⟩ := toNat_of_isShownAscii h
  have ht : c ≠ '\t' := ne_of_toNat_ne (by simp only [Char.reduceToNat]; omega)
  simp [isGap, isSpaceOrTab, not_isBreak_of_isShownAscii h, ht]

theorem lineEnd?_of_not_isBreak {c : Char} {r : List Char} (h : isBreak c = false) :
    lineEnd? (c :: r) = none := by
  simp only [isBreak, Bool.or_eq_false_iff, decide_eq_false_iff_not] at h
  obtain ⟨⟨⟨⟨h₁, h₂⟩, h₃⟩, h₄⟩, h₅⟩ := h
  simp only [lineEnd?]
  split
  · rename_i heq
    cases heq
    exact absurd rfl h₂
  · rename_i heq
    cases heq
    simp [h₁, h₂, h₃, h₄, h₅]
  · rfl

theorem lineEnd?_lineFeed (r : List Char) : lineEnd? ('\n' :: r) = some ('\n', r) := rfl

namespace Cursor

theorem advance_add (m n : Nat) (k : Cursor) : advance (m + n) k = advance n (advance m k) := by
  induction m generalizing k with
  | zero => rw [Nat.zero_add, advance]
  | succ m ih => rw [Nat.succ_add, advance, advance, ih]

theorem moveTo_eq_advance {k : Cursor} {w r : List Char} (h : k.rest = w ++ r) :
    k.moveTo r = advance w.length k := by
  rw [moveTo, h, List.length_append, Nat.add_sub_cancel]

theorem moveTo_self (k : Cursor) : k.moveTo k.rest = k := by
  rw [moveTo, Nat.sub_self, advance]

theorem rest_moveTo {k : Cursor} {w r : List Char} (h : k.rest = w ++ r) :
    (k.moveTo r).rest = r := by
  rw [moveTo_eq_advance h, rest_advance, h, List.drop_left]

theorem next_of_not_isBreak {k : Cursor} {c : Char} {r : List Char} (h : k.rest = c :: r)
    (hb : isBreak c = false) (hm : c ≠ '\ufeff') :
    k.next = ⟨r, k.index + 1, k.line, k.column + 1⟩ := by
  rw [next, h]
  simp [endsLine, hb, hm]

/-- Within a line every character counts. -/
theorem moveTo_within_line {k : Cursor} {w r : List Char} (h : k.rest = w ++ r)
    (hw : ∀ c ∈ w, Style.isShownAscii c = true) :
    k.moveTo r = ⟨r, k.index + w.length, k.line, k.column + w.length⟩ := by
  rw [moveTo_eq_advance h]
  induction w generalizing k with
  | nil =>
    obtain ⟨rest, index, line, column⟩ := k
    simp only [List.nil_append] at h
    simp [advance, h]
  | cons c w ih =>
    have hc := hw c List.mem_cons_self
    have hm : c ≠ '\ufeff' :=
      ne_of_toNat_ne (by have := (toNat_of_isShownAscii hc).2; simp only [Char.reduceToNat]; omega)
    have hn := next_of_not_isBreak h (not_isBreak_of_isShownAscii hc) hm
    rw [List.length_cons, advance, hn, ih rfl fun d hd => hw d (List.mem_cons_of_mem c hd)]
    simp only [Nat.add_assoc, Nat.add_comm 1]

theorem column_advance_spaces (n : Nat) {k : Cursor} {r : List Char}
    (h : k.rest = Written.spaces n ++ r) : (advance n k).column = k.column + n := by
  have hm := moveTo_within_line h (by
    intro c hc
    rw [List.eq_of_mem_replicate hc]
    rfl)
  rw [moveTo_eq_advance h, Written.spaces, List.length_replicate] at hm
  rw [hm]

theorem column_moveTo_line {k : Cursor} {w r : List Char} {n : Nat}
    (h : k.rest = w ++ '\n' :: (Written.spaces n ++ r)) : (k.moveTo r).column = n := by
  have hr : (advance w.length k).rest = '\n' :: (Written.spaces n ++ r) := by
    rw [rest_advance, h, List.drop_left]
  have hn : (advance w.length k).next = ⟨Written.spaces n ++ r, (advance w.length k).index + 1,
      (advance w.length k).line + 1, 0⟩ := by
    rw [next, hr]
    rfl
  have hl : k.rest = (w ++ '\n' :: Written.spaces n) ++ r := by simp [h]
  rw [moveTo_eq_advance hl, List.length_append, List.length_cons, advance_add, advance, hn,
    Written.spaces, List.length_replicate, column_advance_spaces n rfl, Nat.zero_add]

end Cursor
end RouteCompiler.Yaml
