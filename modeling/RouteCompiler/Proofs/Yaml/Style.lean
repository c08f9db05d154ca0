import RouteCompiler.Proofs.Yaml.Cursor
import RouteCompiler.Text.Points
import RouteCompiler.Yaml.Style

/-!
What the style of a text says about it: plain text starts with a character that starts nothing else,
has no mark inside and is no other scalar than text.
-/

namespace RouteCompiler.Yaml

/-- Text of these characters has no halves of surrogate pairs. -/
theorem map_char_of_isPlainAscii {s : Points} (h : ∀ c ∈ s.toList, isPlainAscii c = true) :
    s.toList.map .char = s := by
  refine Points.map_char_toList fun p hp => ?_
  cases p with
  | char c => rfl
  | half n =>
    have hmark : isPlainAscii (Point.toChar (.half n)) = false := by
      rw [Point.toChar]
      decide
    have hp := h _ (List.mem_map_of_mem hp)
    rw [hmark] at hp
    cases hp

theorem allowsPlain_of_ofText {cs : List Char} (h : Style.ofText cs = .plain) :
    Style.allowsPlain cs = true := by
  rw [Style.ofText] at h
  split at h
  · assumption
  · split at h <;> cases h

theorem allowsSingle_of_ofText {cs : List Char} (h : Style.ofText cs = .single) :
    Style.allowsSingle cs = true := by
  rw [Style.ofText] at h
  split at h
  · cases h
  · split at h
    · assumption
    · cases h

/-- A plain scalar starts here, and nothing else. -/
structure StartsPlain (c : Char) (r : List Char) : Prop where
  shown : Style.isShownAscii c = true
  notSpace : c ≠ ' '
  notOpener : Style.openers.contains c = false
  joined : c = '?' ∨ c = ':' ∨ c = '-' → endsOr isGap r = false

theorem openers_eq : Style.openers =
    ['#', ',', '[', ']', '\x7b', '\x7d', '&', '*', '!', '|', '>', '\'', '"', '%', '@', '\x60'] := by
  unfold Style.openers
  rw [String.toList_ofList]

/-- What a plain scalar does not start with, one by one. -/
theorem StartsPlain.ne {c : Char} {r : List Char} (h : StartsPlain c r) :
    c ≠ '#' ∧ c ≠ ',' ∧ c ≠ '[' ∧ c ≠ ']' ∧ c ≠ '\x7b' ∧ c ≠ '\x7d' ∧ c ≠ '&' ∧ c ≠ '*' ∧ c ≠ '!' ∧
      c ≠ '|' ∧ c ≠ '>' ∧ c ≠ '\'' ∧ c ≠ '"' ∧ c ≠ '%' ∧ c ≠ '@' ∧ c ≠ '\x60' := by
  have ho := h.notOpener
  rw [openers_eq] at ho
  simpa using ho

theorem of_allowsPlain {cs : List Char} (h : Style.allowsPlain cs = true) :
    (∀ c ∈ cs, Style.isShownAscii c = true) ∧ cs.getLast? ≠ some ' ' ∧ Tag.ofPlain cs = .str ∧
      Style.hasInnerMark 'x' cs = false ∧ ∃ c r, cs = c :: r ∧ StartsPlain c r := by
  rw [Style.allowsPlain] at h
  simp only [Bool.and_eq_true, List.all_eq_true, decide_eq_true_eq, Bool.not_eq_true',
    beq_iff_eq] at h
  obtain ⟨⟨⟨⟨hall, hhead⟩, hlast⟩, hmark⟩, htag⟩ := h
  cases cs with
  | nil => exact absurd htag (by decide)
  | cons c r =>
    simp only [Style.hasMark, Bool.or_eq_false_iff, Bool.and_eq_false_iff,
      decide_eq_false_iff_not] at hmark
    obtain ⟨⟨⟨-, hopen⟩, hjoin⟩, hinner⟩ := hmark
    have hc : StartsPlain c r := by
      refine ⟨hall c List.mem_cons_self, fun e => hhead (by rw [e]; rfl), hopen, ?_⟩
      intro hc
      obtain h | h := hjoin
      · obtain ⟨⟨h₁, h₂⟩, h₃⟩ := h
        obtain hc | hc | hc := hc
        · exact absurd hc h₁
        · exact absurd hc h₂
        · exact absurd hc h₃
      · exact h
    refine ⟨hall, hlast, htag, ?_, c, r, rfl, hc⟩
    have hcolon : ¬ (c = ':' ∧ endsOr isGap r = true) := by
      rintro ⟨rfl, ha⟩
      rw [hc.joined (by decide)] at ha
      cases ha
    simp [Style.hasInnerMark, hinner, hc.ne]
    exact fun e => by simpa [e] using hcolon

end RouteCompiler.Yaml
