import Mathlib.Data.Nat.Bitwise
import RouteCompiler.Proofs.Json.Spelling
import RouteCompiler.Yaml.Scalar
import RouteCompiler.Yaml.Tag
import RouteCompiler.Yaml.Value.OfJson

/-!
Numbers and words as plain scalars. A number in a spelling that all readers share gets the tag of
its kind, and has the same value as in a JSON text.
-/

namespace RouteCompiler.Yaml

open Json (IsDigits IsWhole Exponent sign digitsValue plainWords)

/-! ## Signs of floating-point numbers -/

/-- Adding the highest bit flips it. -/
theorem ofNat_two_pow_add (x : Nat) :
    UInt64.ofNat (2 ^ 63 + x) = UInt64.ofNat x ^^^ 0x8000000000000000 := by
  apply UInt64.toNat_inj.1
  rw [UInt64.toNat_xor, UInt64.toNat_ofNat', UInt64.toNat_ofNat']
  change (2 ^ 63 + x) % 2 ^ 64 = (x % 2 ^ 64) ^^^ 2 ^ 63
  apply Nat.eq_of_testBit_eq
  intro i
  rw [Nat.testBit_xor, Nat.testBit_mod_two_pow, Nat.testBit_mod_two_pow, Nat.testBit_two_pow]
  obtain h | rfl | h := Nat.lt_trichotomy i 63
  · rw [Nat.testBit_two_pow_add_gt h, decide_eq_false (Nat.ne_of_gt h), Bool.xor_false]
  · rw [Nat.testBit_two_pow_add_eq]
    simp
  · have h64 : ¬ i < 64 := by omega
    simp [h64, Nat.ne_of_lt h]

namespace Scalar

open Binary64

theorem neg_pack (e f : Nat) : (pack false e f).neg = pack true e f := by
  have h := ofNat_two_pow_add (e * pow2 52 + f)
  simp only [neg, pack, pow2, if_true, Bool.false_eq_true, if_false, Nat.zero_add, Nat.add_assoc,
    Binary64.mk.injEq]
  exact h.symm

theorem neg_ofRatio (num den : Nat) : (ofRatio false num den).neg = ofRatio true num den := by
  simp only [ofRatio, zero, infinity, apply_ite neg, neg_pack]

/-- The sign of a decimal number can be put on before rounding or behind it. -/
theorem neg_ofDecimal (n : Nat) (e : Int) :
    (ofDecimal false n e).neg = ofDecimal true n e := by
  simp only [ofDecimal, zero, infinity, apply_ite neg, neg_pack, neg_ofRatio]

/-! ## Digits -/

theorem toNat_of_isDigit {c : Char} (h : Json.isDigit c = true) : 48 ≤ c.toNat ∧ c.toNat ≤ 57 := by
  have hc : (decide ('0'.val ≤ c.val) && decide (c.val ≤ '9'.val)) = true := h
  simpa [UInt32.le_iff_toNat_le] using hc

theorem ne_of_isDigit {c d : Char} (h : Json.isDigit c = true) (hd : Json.isDigit d = false) :
    c ≠ d := by
  rintro rfl
  rw [h] at hd
  cases hd

theorem digitIn_ten {c : Char} (h : Json.isDigit c = true) :
    digitIn 10 c = some (c.toNat - 48) := by
  have hall : ∀ d, d < 10 → digitIn 10 (Char.ofNat (48 + d)) = some d := by decide
  obtain ⟨h₁, h₂⟩ := toNat_of_isDigit h
  have hc : Char.ofNat (48 + (c.toNat - 48)) = c := by
    rw [Nat.add_sub_cancel' h₁, Char.ofNat_toNat]
  rw [← hall _ (by omega : c.toNat - 48 < 10), hc]

theorem digitsIn_ten {ds : List Char} (h : IsDigits ds) :
    digitsIn 10 ds = some (digitsValue ds) := by
  obtain ⟨hd, hne⟩ := h
  have hfold (n : Nat) : ds.foldlM (fun n c => (digitIn 10 c).map (10 * n + ·)) n =
      some (ds.foldl (fun n d => 10 * n + (d.toNat - 48)) n) := by
    clear hne
    induction ds generalizing n with
    | nil => rfl
    | cons d ds ih =>
      rw [List.foldlM_cons, digitIn_ten (hd d List.mem_cons_self)]
      exact ih (fun c hc => hd c (List.mem_cons_of_mem d hc)) _
  rw [digitsIn, if_neg (by simpa using hne)]
  exact hfold 0

/-! ## Characters of numbers -/

/-- The characters numbers are written with. -/
def isNumberChar (c : Char) : Bool := Json.isDigit c || "+-.eE".toList.contains c

theorem isNumberChar_of_isDigit {c : Char} (h : Json.isDigit c = true) : isNumberChar c = true := by
  simp [isNumberChar, h]

theorem ne_of_isNumberChar {c d : Char} (h : isNumberChar c = true) (hd : isNumberChar d = false) :
    c ≠ d := by
  rintro rfl
  rw [h] at hd
  cases hd

theorem toNat_of_isNumberChar {c : Char} (h : isNumberChar c = true) :
    43 ≤ c.toNat ∧ c.toNat ≤ 101 := by
  simp only [isNumberChar, Bool.or_eq_true, List.contains_iff_mem] at h
  obtain h | h := h
  · have := toNat_of_isDigit h
    omega
  · have hall : "+-.eE".toList.all (fun d => 43 ≤ d.toNat && d.toNat ≤ 101) = true := by decide
    simpa using List.all_eq_true.1 hall c h

theorem isBlank_of_isNumberChar {c : Char} (h : isNumberChar c = true) :
    Text.isBlank c = false := by
  obtain ⟨h₁, h₂⟩ := toNat_of_isNumberChar h
  simp only [Text.isBlank, Bool.or_eq_false_iff, Bool.and_eq_false_iff, decide_eq_false_iff_not,
    beq_eq_false_iff_ne]
  omega

theorem trim_number {cs : List Char} (h : ∀ c ∈ cs, isNumberChar c = true) : trim cs = cs := by
  have hdrop {cs : List Char} (h : ∀ c ∈ cs, isNumberChar c = true) :
      cs.dropWhile (fun c => Text.isBlank c && !('\x1c' ≤ c && c ≤ '\x1f')) = cs := by
    cases cs with
    | nil => rfl
    | cons c cs =>
      rw [List.dropWhile_cons_of_neg]
      simp [isBlank_of_isNumberChar (h c List.mem_cons_self)]
  rw [trim, Text.trimBy, hdrop h, hdrop (by simpa using h), List.reverse_reverse]

theorem isNumberChar_sign (negative : Bool) : ∀ c ∈ sign negative, isNumberChar c = true := by
  have hall : (sign negative).all isNumberChar = true := by cases negative <;> decide
  exact List.all_eq_true.1 hall

theorem isNumberChar_digits {ds : List Char} (h : IsDigits ds) : ∀ c ∈ ds, isNumberChar c = true :=
  fun c hc => isNumberChar_of_isDigit (h.digits c hc)

theorem isNumberChar_exponent {es : List Char} {e : Int} (h : Exponent es e) :
    ∀ c ∈ es, isNumberChar c = true := by
  cases h with
  | none => simp
  | positive he h | negative he h =>
    intro c hc
    obtain rfl | hc := List.mem_cons.1 hc
    · obtain rfl | rfl := he <;> decide
    obtain rfl | hc := List.mem_cons.1 hc
    · decide
    · exact isNumberChar_digits h c hc

/-! ## Values -/

theorem signed_digits {ds r : List Char} (h : IsWhole ds) :
    signed (ds ++ r) = (false, ds ++ r) := by
  obtain ⟨d, t, rfl, hd⟩ := h.exists_cons
  rw [List.cons_append, signed]
  · rintro _ e
    cases e
    cases hd
  · rintro _ e
    cases e
    cases hd

theorem integer_ten {ds : List Char} (h : IsWhole ds) : integer 10 ds = .ok (digitsValue ds) := by
  have hsigned := signed_digits h (r := [])
  rw [List.append_nil] at hsigned
  have hmark : dropBaseMark 10 ds = ds := by
    unfold dropBaseMark
    split
    · rw [if_neg (by simp [baseLetter])]
    · rfl
  simp only [integer, trim_number (isNumberChar_digits h.toIsDigits), hsigned, hmark,
    digitsIn_ten h.toIsDigits, applySign, Bool.false_eq_true, if_false]

theorem filter_number {cs : List Char} (h : ∀ c ∈ cs, isNumberChar c = true) :
    cs.filter (· ≠ '_') = cs := by
  rw [List.filter_eq_self]
  intro c hc
  simpa using ne_of_isNumberChar (h c hc) (by decide)

theorem contains_colon {cs : List Char} (h : ∀ c ∈ cs, isNumberChar c = true) :
    cs.contains ':' = false := by
  rw [List.contains_eq_mem, decide_eq_false_iff_not]
  intro hc
  exact ne_of_isNumberChar (h _ hc) (by decide) rfl

theorem int_whole (negative : Bool) {ds : List Char} (h : IsWhole ds) :
    int (sign negative ++ ds) =
      .ok (if negative then -(digitsValue ds : Int) else digitsValue ds) := by
  have hchars : ∀ c ∈ sign negative ++ ds, isNumberChar c = true := by
    intro c hc
    obtain hc | hc := List.mem_append.1 hc
    · exact isNumberChar_sign negative c hc
    · exact isNumberChar_digits h.toIsDigits c hc
  have hten := integer_ten h
  have hcolon := contains_colon (isNumberChar_digits h.toIsDigits)
  obtain ⟨d, t, rfl, hd⟩ := h.exists_cons
  have hcolon : ¬ (':' = d ∨ ':' ∈ t) := by simpa using hcolon
  have hminus : d ≠ '-' := ne_of_isDigit hd rfl
  have hplus : d ≠ '+' := ne_of_isDigit hd rfl
  rw [int, filter_number hchars]
  by_cases h0 : d = '0'
  · have ht : t = [] := by simpa [h0] using h.leading
    subst h0 ht
    cases negative <;> rfl
  · cases negative with
    | false => simp [sign, hminus, hplus, h0, hcolon, hten, applySign, Functor.map, Except.map]
    | true => simp [sign, h0, hcolon, hten, applySign, Functor.map, Except.map]

theorem isSome_digitValue? {c : Char} (h : Json.isDigit c = true) :
    (Text.digitValue? c).isSome = true := by
  have hall : ∀ d, d < 10 → (Text.digitValue? (Char.ofNat (48 + d))).isSome = true := by decide
  obtain ⟨h₁, h₂⟩ := toNat_of_isDigit h
  have hc := hall _ (by omega : c.toNat - 48 < 10)
  rwa [Nat.add_sub_cancel' h₁, Char.ofNat_toNat] at hc

theorem toLower_of_isDigit {c : Char} (h : Json.isDigit c = true) : c.toLower = c := by
  obtain ⟨h₁, h₂⟩ := toNat_of_isDigit h
  refine dif_neg fun hc => ?_
  have h65 : 65 ≤ c.toNat := UInt32.le_iff_toNat_le.1 hc.1
  omega

theorem map_toLower_digits {ds : List Char} (h : IsDigits ds) : ds.map Char.toLower = ds := by
  rw [List.map_congr_left fun c hc => toLower_of_isDigit (h.digits c hc), List.map_id']

theorem span_digitValue? {ds r : List Char} (h : IsDigits ds)
    (hr : ∀ c ∈ r.head?, (Text.digitValue? c).isSome = false) :
    (ds ++ r).takeWhile (fun c => (Text.digitValue? c).isSome) = ds ∧
      (ds ++ r).dropWhile (fun c => (Text.digitValue? c).isSome) = r := by
  have hrest : r.takeWhile (fun c => (Text.digitValue? c).isSome) = [] ∧
      r.dropWhile (fun c => (Text.digitValue? c).isSome) = r := by
    cases r with
    | nil => exact ⟨rfl, rfl⟩
    | cons c r =>
      have hc := hr c rfl
      simp [hc]
  have hd : ∀ c ∈ ds, (Text.digitValue? c).isSome = true := fun c hc =>
    isSome_digitValue? (h.digits c hc)
  rw [List.takeWhile_append_of_pos hd, List.dropWhile_append_of_pos hd, hrest.1, hrest.2,
    List.append_nil]
  exact ⟨rfl, rfl⟩

/-- The digits of a number with a fraction, and the exponent in lower case. -/
theorem decimal?_eq {ds fs es : List Char} {e : Int} (h : IsDigits ds) (hf : IsDigits fs)
    (he : Exponent es e) :
    decimal? (ds ++ '.' :: (fs ++ es.map Char.toLower)) = some (ds, fs, e) := by
  have hletter {x : Char} (hx : x = 'e' ∨ x = 'E') : x.toLower = 'e' := by
    obtain rfl | rfl := hx <;> decide
  have hhead : ∀ c ∈ (es.map Char.toLower).head?, (Text.digitValue? c).isSome = false := by
    cases he with
    | none => simp
    | positive hx _ | negative hx _ =>
      rintro c ⟨⟩
      rw [hletter hx]
      decide +kernel
  have hd := span_digitValue? (r := '.' :: (fs ++ es.map Char.toLower)) h (by
    rintro c ⟨⟩
    decide +kernel)
  have hfs := span_digitValue? hf hhead
  have hne : ds.isEmpty = false := by simpa using h.nonempty
  rw [decimal?]
  simp only [hd.1, hd.2, hfs.1, hfs.2, hne, Bool.false_and, Bool.false_eq_true, if_false]
  cases he with
  | none => rfl
  | positive hx hes | negative hx hes =>
    simp only [List.map_cons, hletter hx, map_toLower_digits hes]
    simp [show Char.toLower '+' = '+' from rfl, show Char.toLower '-' = '-' from rfl, signed,
      digitsIn_ten hes, applySign]

theorem isNumberChar_toLower {c : Char} (h : isNumberChar c = true) :
    isNumberChar c.toLower = true := by
  simp only [isNumberChar, Bool.or_eq_true, List.contains_iff_mem] at h
  obtain h | h := h
  · rw [toLower_of_isDigit h]
    exact isNumberChar_of_isDigit h
  · have hall : "+-.eE".toList.all (fun d => isNumberChar d.toLower) = true := by decide
    exact List.all_eq_true.1 hall c h

/-- A text is no word that begins otherwise. -/
theorem ne_ofList {s : String} {cs : List Char} (h : s.toList.head? ≠ cs.head?) :
    s ≠ String.ofList cs :=
  fun e => h (by rw [e, String.toList_ofList])

theorem contains_ofList {words : List String} {cs : List Char}
    (h : ∀ s ∈ words, s.toList.head? ≠ cs.head?) : words.contains (String.ofList cs) = false := by
  rw [List.contains_eq_mem, decide_eq_false_iff_not]
  exact fun hs => ne_ofList (h _ hs) rfl

theorem head?_ne_of_isWhole {ds : List Char} (h : IsWhole ds) (r : List Char) {x : Option Char}
    (hx : x.all (fun c => !Json.isDigit c) = true) : x ≠ (ds ++ r).head? := by
  obtain ⟨d, t, rfl, hd⟩ := h.exists_cons
  rintro rfl
  simp [hd] at hx

/-- The text of a number with a fraction. -/
def decimalText (negative : Bool) (ds fs es : List Char) : List Char :=
  sign negative ++ (ds ++ '.' :: (fs ++ es))

section
variable {ds fs es : List Char} {e : Int}

theorem isNumberChar_decimal (negative : Bool) (h : IsWhole ds) (hf : IsDigits fs)
    (he : Exponent es e) : ∀ c ∈ decimalText negative ds fs es, isNumberChar c = true := by
  intro c hc
  simp only [decimalText, List.mem_append, List.mem_cons] at hc
  obtain hc | hc | rfl | hc | hc := hc
  · exact isNumberChar_sign negative c hc
  · exact isNumberChar_digits h.toIsDigits c hc
  · decide
  · exact isNumberChar_digits hf c hc
  · exact isNumberChar_exponent he c hc

theorem map_toLower_decimal (negative : Bool) (h : IsWhole ds) (hf : IsDigits fs) :
    (decimalText negative ds fs es).map Char.toLower =
      sign negative ++ (ds ++ '.' :: (fs ++ es.map Char.toLower)) := by
  have hsign : (sign negative).map Char.toLower = sign negative := by cases negative <;> rfl
  simp only [decimalText, List.map_append, List.map_cons, hsign, map_toLower_digits h.toIsDigits,
    map_toLower_digits hf]
  rfl

theorem isNumberChar_lower (h : IsWhole ds) (hf : IsDigits fs) (he : Exponent es e) :
    ∀ c ∈ ds ++ '.' :: (fs ++ es.map Char.toLower), isNumberChar c = true := by
  have hall := isNumberChar_decimal false h hf he
  have hmap : (decimalText false ds fs es).map Char.toLower =
      ds ++ '.' :: (fs ++ es.map Char.toLower) := map_toLower_decimal false h hf
  rw [← hmap]
  intro c hc
  obtain ⟨d, hd, rfl⟩ := List.mem_map.1 hc
  exact isNumberChar_toLower (hall d hd)

theorem real_decimal (h : IsWhole ds) (hf : IsDigits fs) (he : Exponent es e) :
    real (ds ++ '.' :: (fs ++ es.map Char.toLower)) =
      .ok (Binary64.ofDecimal false (digitsValue (ds ++ fs)) (e - fs.length)) := by
  have hsigned := signed_digits h (r := '.' :: (fs ++ es.map Char.toLower))
  have hinf : ["inf", "infinity"].contains
      (String.ofList (ds ++ '.' :: (fs ++ es.map Char.toLower))) = false := by
    refine contains_ofList fun s hs => head?_ne_of_isWhole h _ ?_
    have hall : ∀ s ∈ ["inf", "infinity"],
        s.toList.head?.all (fun c => !Json.isDigit c) = true := by decide
    exact hall s hs
  have hnan : ("nan" == String.ofList (ds ++ '.' :: (fs ++ es.map Char.toLower))) = false :=
    beq_eq_false_iff_ne.2 (ne_ofList (head?_ne_of_isWhole h _ rfl))
  have hdigits : IsDigits (ds ++ fs) := ⟨by
    intro c hc
    obtain hc | hc := List.mem_append.1 hc
    · exact h.digits c hc
    · exact hf.digits c hc, by simp [h.nonempty]⟩
  rw [real, trim_number (isNumberChar_lower h hf he), hsigned]
  simp only [hinf, hnan, decimal?_eq h.toIsDigits hf he, digitsIn_ten hdigits, Bool.false_eq_true,
    if_false, Option.getD_some]

theorem float_decimal (negative : Bool) (h : IsWhole ds) (hf : IsDigits fs) (he : Exponent es e) :
    float (decimalText negative ds fs es) =
      .ok (Binary64.ofDecimal negative (digitsValue (ds ++ fs)) (e - fs.length)) := by
  have hreal := real_decimal h hf he
  have hcolon : (ds ++ '.' :: (fs ++ es.map Char.toLower)).contains ':' = false :=
    contains_colon (isNumberChar_lower h hf he)
  have hinf : (String.ofList (ds ++ '.' :: (fs ++ es.map Char.toLower)) == ".inf") = false :=
    beq_eq_false_iff_ne.2 (ne_ofList (head?_ne_of_isWhole h _ rfl)).symm
  have hnan : (String.ofList (ds ++ '.' :: (fs ++ es.map Char.toLower)) == ".nan") = false :=
    beq_eq_false_iff_ne.2 (ne_ofList (head?_ne_of_isWhole h _ rfl)).symm
  rw [float, filter_number (isNumberChar_decimal negative h hf he),
    map_toLower_decimal negative h hf]
  cases negative with
  | true =>
    rw [← neg_ofDecimal]
    simp only [sign, if_true, List.singleton_append, Bool.true_or, decide_true, hinf, hnan, hcolon,
      Bool.false_eq_true, if_false, hreal]
    rfl
  | false =>
    obtain ⟨d, t, rfl, hd⟩ := h.exists_cons
    have hminus : d ≠ '-' := ne_of_isDigit hd rfl
    have hplus : d ≠ '+' := ne_of_isDigit hd rfl
    simp only [List.cons_append] at hreal hcolon hinf hnan
    simp only [sign, Bool.false_eq_true, if_false, List.nil_append, List.cons_append, hminus, hplus,
      decide_false, Bool.or_self, hinf, hnan, hcolon, hreal]
    rfl

end

end Scalar

/-! ## Tags -/

namespace Tag

open Scalar

variable {ds fs es r : List Char} {e : Int}

theorem dropSign_sign (negative : Bool) (h : IsWhole ds) (r : List Char) :
    dropSign (sign negative ++ (ds ++ r)) = ds ++ r := by
  cases negative with
  | true => rfl
  | false =>
    obtain ⟨d, t, rfl, hd⟩ := h.exists_cons
    simp only [sign, Bool.false_eq_true, if_false, List.nil_append, List.cons_append]
    rw [dropSign]
    · rintro _ e
      cases e
      cases hd
    · rintro _ e
      cases e
      cases hd

/-- What begins with a sign or a digit is none of the words that stand for null or a truth value. -/
theorem ofPlain_number {cs : List Char} (hcs : ∃ c ∈ cs.head?, c = '-' ∨ Json.isDigit c = true) :
    ofPlain cs =
      if isFloatText cs then float
      else if isIntText cs then int
      else if String.ofList cs == "<<" then merge
      else if isMomentText cs then timestamp
      else if String.ofList cs == "=" then value
      else str := by
  have hwords (words : List String)
      (hall : ∀ s ∈ words, s.toList.head?.all (fun c => !(c = '-' || Json.isDigit c)) = true) :
      words.contains (String.ofList cs) = false := by
    refine contains_ofList fun s hs heq => ?_
    obtain ⟨c, hc, h⟩ := hcs
    have := hall s hs
    rw [heq, Option.mem_def.1 hc] at this
    simp at this
    obtain rfl | h := h
    · exact this.1 rfl
    · rw [h] at this
      cases this.2
  have hnull := hwords nullWords (by decide)
  have htrue := hwords trueWords (by decide)
  have hfalse := hwords falseWords (by decide)
  rw [ofPlain]
  simp only [hnull, htrue, hfalse, Bool.or_self, Bool.false_eq_true, if_false]

theorem isDigitOr_of_isDigit {c : Char} (h : Json.isDigit c = true) : isDigitOr_ c = true := by
  have h : isDigit c = true := h
  rw [isDigitOr_, h]
  rfl

theorem dropWhile_digits (h : ∀ d ∈ ds, Json.isDigit d = true)
    (hr : ∀ c ∈ r.head?, isDigitOr_ c = false) : (ds ++ r).dropWhile isDigitOr_ = r := by
  rw [List.dropWhile_append_of_pos fun d hd => isDigitOr_of_isDigit (h d hd)]
  cases r with
  | nil => rfl
  | cons c r => rw [List.dropWhile_cons_of_neg (by rw [hr c rfl]; decide)]

theorem isSignedExponent_exponent (h : Exponent es e) : isSignedExponent es = true := by
  have hdigits {ds : List Char} (h : IsDigits ds) : (!ds.isEmpty && ds.all isDigit) = true := by
    simp only [Bool.and_eq_true, Bool.not_eq_true', List.isEmpty_eq_false_iff, List.all_eq_true]
    exact ⟨h.nonempty, h.digits⟩
  cases h with
  | none => rfl
  | positive he h | negative he h =>
    have hds := hdigits h
    rw [Bool.and_eq_true] at hds
    simp [isSignedExponent, he, hds]

theorem isFloatText_decimal (negative : Bool) (h : IsWhole ds) (hf : IsDigits fs)
    (he : Exponent es e) : isFloatText (decimalText negative ds fs es) = true := by
  have hexponent : ∀ c ∈ es.head?, isDigitOr_ c = false := by
    cases he with
    | none => simp
    | positive he _ | negative he _ =>
      rintro c ⟨⟩
      obtain rfl | rfl := he <;> decide
  have hbody := dropSign_sign negative h ('.' :: (fs ++ es))
  have hfraction := dropWhile_digits hf.digits hexponent
  obtain ⟨d, t, rfl, hd⟩ := h.exists_cons
  have hwhole : (t ++ '.' :: (fs ++ es)).dropWhile isDigitOr_ = '.' :: (fs ++ es) :=
    dropWhile_digits (fun c hc => h.digits c (List.mem_cons_of_mem d hc)) (by rintro c ⟨⟩; decide)
  rw [isFloatText, decimalText, hbody]
  have hpoint : d ≠ '.' := ne_of_isDigit hd rfl
  have hd : isDigit d = true := hd
  simp [hpoint, hd, hwhole, hfraction, isSignedExponent_exponent he]

theorem head?_number (negative : Bool) (h : IsWhole ds) (r : List Char) :
    ∃ c ∈ (sign negative ++ (ds ++ r)).head?, c = '-' ∨ Json.isDigit c = true := by
  obtain ⟨d, t, rfl, hd⟩ := h.exists_cons
  cases negative with
  | true => exact ⟨'-', rfl, .inl rfl⟩
  | false => exact ⟨d, rfl, .inr hd⟩

theorem isFloatText_whole (negative : Bool) (h : IsWhole ds) :
    isFloatText (sign negative ++ ds) = false := by
  have hbody := dropSign_sign negative h []
  have hinf : infinities.contains (String.ofList (ds ++ [])) = false := by
    refine contains_ofList fun s hs => head?_ne_of_isWhole h [] ?_
    have hall : ∀ s ∈ infinities, s.toList.head?.all (fun c => !Json.isDigit c) = true := by decide
    exact hall s hs
  have hnan : nans.contains (String.ofList (sign negative ++ ds)) = false := by
    refine contains_ofList fun s hs heq => ?_
    have hall : ∀ s ∈ nans, s.toList.head? = some '.' := by decide
    obtain ⟨c, hc, h⟩ := head?_number negative h []
    rw [List.append_nil, ← heq, hall s hs] at hc
    cases hc
    revert h
    decide
  rw [List.append_nil] at hbody hinf
  obtain ⟨d, t, rfl, hd⟩ := h.exists_cons
  have hwhole : t.dropWhile isDigitOr_ = [] := by
    have hdrop := dropWhile_digits (r := [])
      (fun c hc => h.digits c (List.mem_cons_of_mem d hc)) (by simp)
    rwa [List.append_nil] at hdrop
  have hpoint : d ≠ '.' := ne_of_isDigit hd rfl
  rw [isFloatText, hbody, hinf, hnan]
  simp [hpoint, hwhole, isSixtiesFloat]

theorem isIntText_whole (negative : Bool) (h : IsWhole ds) :
    isIntText (sign negative ++ ds) = true := by
  have hbody := dropSign_sign negative h []
  rw [List.append_nil] at hbody
  rw [isIntText, hbody]
  obtain ⟨d, t, rfl, hd⟩ := h.exists_cons
  by_cases h0 : d = '0'
  · have ht : t = [] := by simpa [h0] using h.leading
    subst h0 ht
    rfl
  · have ht : t.all isDigitOr_ = true := List.all_eq_true.2 fun c hc =>
      isDigitOr_of_isDigit (h.digits c (List.mem_cons_of_mem d hc))
    have hd : isDigit d = true := hd
    simp [h0, hd, ht]

theorem ofPlain_whole (negative : Bool) (h : IsWhole ds) : ofPlain (sign negative ++ ds) = int := by
  have hhead := head?_number negative h []
  rw [List.append_nil] at hhead
  rw [ofPlain_number hhead, isFloatText_whole negative h, isIntText_whole negative h]
  rfl

theorem ofPlain_decimal (negative : Bool) (h : IsWhole ds) (hf : IsDigits fs) (he : Exponent es e) :
    ofPlain (decimalText negative ds fs es) = float := by
  have hhead : ∃ c ∈ (decimalText negative ds fs es).head?, c = '-' ∨ Json.isDigit c = true :=
    head?_number negative h ('.' :: (fs ++ es))
  rw [ofPlain_number hhead, isFloatText_decimal negative h hf he]
  rfl

end Tag

/-- A word or a number has, as a plain scalar, the value it has in a JSON text. -/
theorem Scalar.value_ofPlain {w : List Char} {v : Json} (h : Json.Bare w v) :
    Scalar.value (Tag.ofPlain w) (w.map .char) = .ok (Value.ofJson v) := by
  cases h with
  | word h =>
    simp only [plainWords, List.mem_cons, Prod.mk.injEq, List.not_mem_nil, or_false] at h
    obtain ⟨rfl, rfl⟩ | ⟨rfl, rfl⟩ | ⟨rfl, rfl⟩ := h <;> rfl
  | whole negative h _ =>
    rw [Tag.ofPlain_whole negative h, Scalar.value, Points.toList_map_char, int_whole negative h]
    rfl
  | decimal negative hd hf he =>
    have htag := Tag.ofPlain_decimal negative hd hf he
    have hfloat := float_decimal negative hd hf he
    rw [decimalText] at htag hfloat
    rw [htag, Scalar.value, Points.toList_map_char, hfloat]
    rfl

end RouteCompiler.Yaml
