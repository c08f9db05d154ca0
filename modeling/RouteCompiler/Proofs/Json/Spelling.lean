import RouteCompiler.Proofs.Json.Room
import RouteCompiler.Yaml.Letter

/-!
Spellings of JSON values that every reader of JSON text takes alike, one for YAML text included.
They leave out tabulators between the parts of a value, keys with a line end or more than 1024
characters between their start and their colon, numbers with an exponent but no fraction or with an
exponent that has no sign, integers with more digits than are converted, characters in strings that
YAML text cannot hold or takes for line ends, and pairs of unit escapes that JSON joins to one
character. The JSON reader reads each of them as the value it spells.
-/

namespace RouteCompiler.Json

/-! ## Spellings -/

/-- What may stand between the parts of a value: spaces and line ends. -/
def IsLayout (l : List Char) : Prop := ∀ c ∈ l, c = ' ' ∨ c = '\n' ∨ c = '\r'

instance (l : List Char) : Decidable (IsLayout l) :=
  decidable_of_iff (l.all fun c => c = ' ' || c = '\n' || c = '\r')
    (by simp only [List.all_eq_true, Bool.or_eq_true, decide_eq_true_eq, or_assoc, IsLayout])

/-- The character can stand in a string as it is. -/
def standsForItself (c : Char) : Bool :=
  Yaml.isAllowed c && !Yaml.isBreak c && c ≠ '\t' && c ≠ '"' && c ≠ '\\'

/-- The characters do not begin with an escape of the unit that makes one character with this. -/
def NotPaired (p : Point) (cs : List Char) : Prop :=
  ∀ es r m, cs = '\\' :: 'u' :: (es ++ r) → es.length = 4 → hex4 es = some m →
    p.paired? (.ofNat m) = none

/-- Characters between the quotes of a string, and the text they stand for. A half of a surrogate
pair may be escaped, but not both of them in a row. -/
inductive Quoted : List Char → Points → Prop
  | nil : Quoted [] []
  | char {c : Char} {cs : List Char} {text : Points} (hc : standsForItself c = true)
    (h : Quoted cs text) : Quoted (c :: cs) (.char c :: text)
  | escape {c d : Char} {cs : List Char} {text : Points} (hc : unescape c = some d)
    (h : Quoted cs text) : Quoted ('\\' :: c :: cs) (.char d :: text)
  | unit {n : Nat} {ds cs : List Char} {text : Points} (hl : ds.length = 4) (hn : hex4 ds = some n)
    (hs : NotPaired (.ofNat n) cs) (h : Quoted cs text) :
    Quoted ('\\' :: 'u' :: (ds ++ cs)) (.ofNat n :: text)

structure IsDigits (ds : List Char) : Prop where
  digits : ∀ d ∈ ds, isDigit d = true
  nonempty : ds ≠ []

/-- Digits without a zero in front of others. -/
structure IsWhole (ds : List Char) : Prop extends IsDigits ds where
  leading : ds.head? = some '0' → ds = ['0']

/-- The exponent of a number behind its fraction: none, or digits behind a sign. -/
inductive Exponent : List Char → Int → Prop
  | none : Exponent [] 0
  | positive {e : Char} {ds : List Char} (he : e = 'e' ∨ e = 'E') (h : IsDigits ds) :
    Exponent (e :: '+' :: ds) (digitsValue ds)
  | negative {e : Char} {ds : List Char} (he : e = 'e' ∨ e = 'E') (h : IsDigits ds) :
    Exponent (e :: '-' :: ds) (-(digitsValue ds : Int))

def sign (negative : Bool) : List Char := if negative then ['-'] else []

/-- What a part of a text spells: a value, or items or members; more of these come behind a
comma. -/
inductive Part
  | value (v : Json)
  | items (vs : List Json)
  | moreItems (vs : List Json)
  | members (ms : List (Points × Json))
  | moreMembers (ms : List (Points × Json))

/-- The words of the standard that are values. -/
def plainWords : List (String × Json) :=
  [("null", .null), ("true", .bool true), ("false", .bool false)]

/-- Values written without quotes or brackets: words and numbers. -/
inductive Bare : List Char → Json → Prop
  | word {w : String} {v : Json} (h : (w, v) ∈ plainWords) : Bare w.toList v
  | whole {ds : List Char} (negative : Bool) (h : IsWhole ds) (hshort : ds.length ≤ maxDigits) :
    Bare (sign negative ++ ds)
      (.int (if negative then -(digitsValue ds : Int) else digitsValue ds))
  | decimal {ds fs es : List Char} {e : Int} (negative : Bool) (hd : IsWhole ds) (hf : IsDigits fs)
    (he : Exponent es e) :
    Bare (sign negative ++ (ds ++ '.' :: (fs ++ es)))
      (.float (Binary64.ofDecimal negative (digitsValue (ds ++ fs)) (e - fs.length)))

/-- The text spells the part, with at most so many containers within each other. -/
inductive Spells : Nat → List Char → Part → Prop
  | bare {n : Nat} {w : List Char} {v : Json} (h : Bare w v) : Spells n w (.value v)
  | string {n : Nat} {cs : List Char} {text : Points} (h : Quoted cs text) :
    Spells n ('"' :: (cs ++ ['"'])) (.value (.str text))
  | emptyArray {n : Nat} {l : List Char} (hl : IsLayout l) :
    Spells (n + 1) ('[' :: (l ++ [']'])) (.value (.arr []))
  | array {n : Nat} {w : List Char} {vs : List Json} (h : Spells n w (.items vs)) :
    Spells (n + 1) ('[' :: (w ++ [']'])) (.value (.arr vs))
  | emptyObject {n : Nat} {l : List Char} (hl : IsLayout l) :
    Spells (n + 1) ('\x7b' :: (l ++ ['\x7d'])) (.value (.obj []))
  | object {n : Nat} {w : List Char} {ms : List (Points × Json)} (h : Spells n w (.members ms)) :
    Spells (n + 1) ('\x7b' :: (w ++ ['\x7d'])) (.value (ofMembers ms))
  | items {n : Nat} {l w l' t : List Char} {v : Json} {vs : List Json} (hl : IsLayout l)
    (hv : Spells n w (.value v)) (hl' : IsLayout l') (ht : Spells n t (.moreItems vs)) :
    Spells n (l ++ (w ++ (l' ++ t))) (.items (v :: vs))
  | noMoreItems {n : Nat} : Spells n [] (.moreItems [])
  | moreItems {n : Nat} {w : List Char} {vs : List Json} (h : Spells n w (.items vs)) :
    Spells n (',' :: w) (.moreItems vs)
  /-- The colon stands on the line of its key. -/
  | members {n k : Nat} {l cs l' w l'' t : List Char} {text : Points} {v : Json}
    {ms : List (Points × Json)} (hl : IsLayout l) (hk : Quoted cs text)
    (hn : cs.length + 2 + k ≤ 1024) (hl' : IsLayout l') (hv : Spells n w (.value v))
    (hl'' : IsLayout l'') (ht : Spells n t (.moreMembers ms)) :
    Spells n
      (l ++ '"' :: (cs ++ '"' :: (List.replicate k ' ' ++ ':' :: (l' ++ (w ++ (l'' ++ t))))))
      (.members ((text, v) :: ms))
  | noMoreMembers {n : Nat} : Spells n [] (.moreMembers [])
  | moreMembers {n : Nat} {w : List Char} {ms : List (Points × Json)}
    (h : Spells n w (.members ms)) : Spells n (',' :: w) (.moreMembers ms)

/-! ## Layout -/

namespace IsLayout

theorem nil : IsLayout [] := List.forall_mem_nil _

theorem tail {c : Char} {l : List Char} (h : IsLayout (c :: l)) : IsLayout l :=
  fun d hd => h d (List.mem_cons_of_mem c hd)

theorem append {l l' : List Char} (h : IsLayout l) (h' : IsLayout l') : IsLayout (l ++ l') := by
  intro c hc
  obtain hc | hc := List.mem_append.1 hc
  · exact h c hc
  · exact h' c hc

theorem spaces (n : Nat) : IsLayout (List.replicate n ' ') :=
  fun _ hd => .inl (List.eq_of_mem_replicate hd)

end IsLayout

/-! ## Strings -/

theorem quoted_of_all {cs : List Char} (h : cs.all standsForItself = true) :
    Quoted cs (cs.map .char) := by
  induction cs with
  | nil => exact .nil
  | cons c cs ih =>
    simp only [List.all_cons, Bool.and_eq_true] at h
    exact .char h.1 (ih h.2)

theorem not_of_standsForItself {c : Char} (h : standsForItself c = true) :
    0x1f < c.toNat ∧ c ≠ '"' ∧ c ≠ '\\' := by
  simp only [standsForItself, Bool.and_eq_true, decide_eq_true_eq, Bool.not_eq_true'] at h
  obtain ⟨⟨⟨⟨hallowed, hbreak⟩, htab⟩, hquote⟩, hback⟩ := h
  refine ⟨?_, hquote, hback⟩
  simp only [Yaml.isBreak, Bool.or_eq_false_iff, decide_eq_false_iff_not] at hbreak
  have hne {d : Char} (h : c ≠ d) : c.toNat ≠ d.toNat := fun e => h (Char.toNat_inj.1 e)
  have h₁ := hne htab
  have h₂ := hne hbreak.1.1.1.1
  have h₃ := hne hbreak.1.1.1.2
  simp only [Yaml.isAllowed, Bool.or_eq_true, Bool.and_eq_true, beq_iff_eq,
    decide_eq_true_eq] at hallowed
  simp only [Char.reduceToNat] at h₁ h₂ h₃
  omega

section
variable {start : Nat} {r : List Char} {acc : Points}

theorem stringRest_char {c : Char} (h : standsForItself c = true) :
    stringRest start (c :: r) acc = stringRest start r (.char c :: acc) := by
  obtain ⟨hn, hq, hb⟩ := not_of_standsForItself h
  rw [stringRest]
  · rw [if_neg (Nat.not_le.2 hn)]
  · exact hq
  · exact fun e => absurd e hb
  · exact fun _ e => absurd e hb
  · exact fun _ _ e => absurd e hb

theorem stringRest_escape {c d : Char} (h : unescape c = some d) :
    stringRest start ('\\' :: c :: r) acc = stringRest start r (.char d :: acc) := by
  have hu : c ≠ 'u' := by
    rintro rfl
    cases h
  rw [stringRest]
  · rw [h]
  · exact hu

theorem hex4_append {ds : List Char} {n : Nat} (hl : ds.length = 4) (hn : hex4 ds = some n)
    (r : List Char) : hex4 (ds ++ r) = some n := by
  match ds, hl with
  | [a, b, c, d], _ => exact hn

theorem length_append_quote (ds cs r : List Char) (h : ds.length = 4) :
    ¬ (ds ++ (cs ++ '"' :: r)).length < 5 := by
  simp only [List.length_append, List.length_cons]
  omega

/-- A unit escape behind another one, if there is any, is read as its unit. -/
theorem secondUnit_quoted {cs : List Char} {text : Points} (h : Quoted cs text) :
    secondUnit (cs ++ '"' :: r) = none ∨ ∃ es cs' m, cs = '\\' :: 'u' :: (es ++ cs') ∧
      es.length = 4 ∧ hex4 es = some m ∧ secondUnit (cs ++ '"' :: r) = some (.ok (.ofNat m)) := by
  cases h with
  | nil => exact .inl rfl
  | @char c cs _ hc h =>
    refine .inl ?_
    rw [List.cons_append, secondUnit]
    exact fun _ e => (not_of_standsForItself hc).2.2 (List.cons.inj e).1
  | @escape c d cs _ hc h =>
    have hu : c ≠ 'u' := by
      rintro rfl
      cases hc
    refine .inl ?_
    rw [List.cons_append, List.cons_append, secondUnit]
    exact fun _ e => hu (List.cons.inj (List.cons.inj e).2).1
  | @unit m es cs' _ hl hm _ h =>
    refine .inr ⟨es, cs', m, rfl, hl, hm, ?_⟩
    rw [List.cons_append, List.cons_append, List.append_assoc, secondUnit,
      if_neg (length_append_quote es cs' r hl), hex4_append hl hm]

theorem stringRest_unit {ds cs : List Char} {n : Nat} {text : Points} (hl : ds.length = 4)
    (hn : hex4 ds = some n) (hs : NotPaired (.ofNat n) cs) (h : Quoted cs text) :
    stringRest start ('\\' :: 'u' :: (ds ++ (cs ++ '"' :: r))) acc =
      stringRest start (cs ++ '"' :: r) (.ofNat n :: acc) := by
  rw [stringRest, if_neg (length_append_quote ds cs r hl), hex4_append hl hn]
  simp only [List.drop_left' hl]
  split
  next => rfl
  next e hsecond =>
    obtain hnone | ⟨es, cs', m, -, -, -, hsome⟩ := secondUnit_quoted (r := r) h
    · simp [hnone] at hsecond
    · simp [hsome] at hsecond
  next q hsecond =>
    obtain hnone | ⟨es, cs', m, hcs, hes, hm, hsome⟩ := secondUnit_quoted (r := r) h
    · simp [hnone] at hsecond
    · obtain rfl : .ofNat m = q := by
        rw [hsome] at hsecond
        split at hsecond
        · exact Except.ok.inj (Option.some.inj hsecond)
        · cases hsecond
      rw [hs es cs' m hcs hes hm]

theorem stringRest_quoted {cs : List Char} {text : Points} (h : Quoted cs text) :
    stringRest start (cs ++ '"' :: r) acc = .ok (acc.reverse ++ text, r) := by
  induction h generalizing acc with
  | nil => simp [stringRest]
  | char hc _ ih =>
    rw [List.cons_append, stringRest_char hc, ih]
    simp
  | escape hc _ ih =>
    rw [List.cons_append, List.cons_append, stringRest_escape hc, ih]
    simp
  | unit hl hn hs h ih =>
    rw [List.cons_append, List.cons_append, List.append_assoc, stringRest_unit hl hn hs h, ih]
    simp

theorem string_quoted {cs : List Char} {text : Points} (h : Quoted cs text) :
    string (cs ++ '"' :: r) = .ok (text, r) := by
  rw [string, stringRest_quoted h]
  rfl

end

/-! ## Numbers -/

/-- No digit, point or exponent comes next. -/
def EndsNumber (r : List Char) : Prop :=
  ∀ c ∈ r.head?, isDigit c = false ∧ c ≠ '.' ∧ c ≠ 'e' ∧ c ≠ 'E'

theorem span_digits {ds r : List Char} (h : ∀ d ∈ ds, isDigit d = true)
    (hr : ∀ c ∈ r.head?, isDigit c = false) :
    (ds ++ r).takeWhile isDigit = ds ∧ (ds ++ r).dropWhile isDigit = r := by
  have hrest : r.takeWhile isDigit = [] ∧ r.dropWhile isDigit = r := by
    cases r with
    | nil => exact ⟨rfl, rfl⟩
    | cons c r =>
      have hc := hr c rfl
      simp [hc]
  rw [List.takeWhile_append_of_pos h, List.dropWhile_append_of_pos h, hrest.1, hrest.2,
    List.append_nil]
  exact ⟨rfl, rfl⟩

theorem fractionOf_of_ne {r : List Char} (h : ∀ c ∈ r.head?, c ≠ '.') : fractionOf r = ([], r) := by
  cases r with
  | nil => rfl
  | cons c r =>
    have hc := h c rfl
    unfold fractionOf
    split
    · rename_i heq
      cases heq
      exact absurd rfl hc
    · rfl

theorem exponentOf_of_ne {r : List Char} (h : ∀ c ∈ r.head?, c ≠ 'e' ∧ c ≠ 'E') :
    exponentOf r = (none, r) := by
  cases r with
  | nil => rfl
  | cons c r =>
    have hc := h c rfl
    simp [exponentOf, hc]

theorem fractionOf_digits {fs r : List Char} (h : IsDigits fs)
    (hr : ∀ c ∈ r.head?, isDigit c = false) : fractionOf ('.' :: (fs ++ r)) = (fs, r) := by
  obtain ⟨hd, hne⟩ := h
  have hspan := span_digits hd hr
  cases fs with
  | nil => exact absurd rfl hne
  | cons f fs =>
    rw [fractionOf, hspan.1, hspan.2]
    simp [hd f List.mem_cons_self]

/-- An exponent, or none, in front of what ends a number. -/
theorem exponentOf_exponent {es : List Char} {e : Int} (h : Exponent es e) {r : List Char}
    (hr : EndsNumber r) : ∃ x, exponentOf (es ++ r) = (x, r) ∧ x.getD 0 = e := by
  have hdigits {ds : List Char} (h : IsDigits ds) : ((ds ++ r).head?.any isDigit) = true ∧
      (ds ++ r).takeWhile isDigit = ds ∧ (ds ++ r).dropWhile isDigit = r := by
    obtain ⟨hd, hne⟩ := h
    refine ⟨?_, span_digits hd fun c hc => (hr c hc).1⟩
    cases ds with
    | nil => exact absurd rfl hne
    | cons d ds => simp [hd d List.mem_cons_self]
  cases h with
  | none => exact ⟨none, exponentOf_of_ne fun c hc => (hr c hc).2.2, rfl⟩
  | @positive e ds he h =>
    obtain ⟨h₁, h₂, h₃⟩ := hdigits h
    refine ⟨some (digitsValue ds), ?_, rfl⟩
    simp only [List.cons_append, exponentOf, he, Bool.or_eq_true, decide_eq_true_eq, if_true, h₁,
      h₂, h₃]
    rfl
  | @negative e ds he h =>
    obtain ⟨h₁, h₂, h₃⟩ := hdigits h
    refine ⟨some (-(digitsValue ds : Int)), ?_, rfl⟩
    simp only [List.cons_append, exponentOf, he, Bool.or_eq_true, decide_eq_true_eq, if_true, h₁,
      h₂, h₃]

section
variable {ds r : List Char}

theorem IsWhole.cases (h : IsWhole ds) (r : List Char) (hr : ∀ c ∈ r.head?, isDigit c = false) :
    ∃ d t, ds ++ r = d :: t ∧ isDigit d = true ∧
      (if d = '0' then ([d], t) else ((ds ++ r).takeWhile isDigit, (ds ++ r).dropWhile isDigit)) =
        (ds, r) := by
  obtain ⟨⟨hd, hne⟩, hzero⟩ := h
  have hspan := span_digits hd hr
  cases ds with
  | nil => exact absurd rfl hne
  | cons d ds =>
    refine ⟨d, ds ++ r, rfl, hd d List.mem_cons_self, ?_⟩
    split
    · rename_i h0
      rw [h0] at hzero ⊢
      cases hzero rfl
      rfl
    · rw [hspan.1, hspan.2]

theorem unsignedNumber_whole (negative : Bool) (h : IsWhole ds) (hr : EndsNumber r) :
    unsignedNumber negative (ds ++ r) =
      some (if maxDigits < ds.length then .error .longInteger
        else .ok (.int (if negative then -(digitsValue ds : Int) else digitsValue ds), r)) := by
  obtain ⟨d, t, ht, hd, hsplit⟩ := h.cases r fun c hc => (hr c hc).1
  have hfraction := fractionOf_of_ne fun c hc => (hr c hc).2.1
  have hexponent := exponentOf_of_ne fun c hc => (hr c hc).2.2
  rw [ht] at hsplit ⊢
  simp only [unsignedNumber, hd, if_true, hsplit, hfraction, hexponent, List.isEmpty_nil,
    Option.isNone_none, Bool.and_self]
  split <;> rfl

theorem unsignedNumber_decimal {fs es : List Char} {e : Int} (negative : Bool) (h : IsWhole ds)
    (hf : IsDigits fs) (he : Exponent es e) (hr : EndsNumber r) :
    unsignedNumber negative (ds ++ '.' :: (fs ++ (es ++ r))) =
      some (.ok
        (.float (Binary64.ofDecimal negative (digitsValue (ds ++ fs)) (e - fs.length)), r)) := by
  obtain ⟨d, t, ht, hd, hsplit⟩ := h.cases ('.' :: (fs ++ (es ++ r))) (by
    intro c hc
    cases hc
    rfl)
  have hhead : ∀ c ∈ (es ++ r).head?, isDigit c = false := by
    cases he with
    | none => exact fun c hc => (hr c hc).1
    | positive he _ | negative he _ =>
      intro c hc
      cases hc
      obtain rfl | rfl := he <;> rfl
  obtain ⟨x, hx, rfl⟩ := exponentOf_exponent he hr
  have hne : fs.isEmpty = false := List.isEmpty_eq_false_iff.2 hf.nonempty
  rw [ht] at hsplit ⊢
  simp only [unsignedNumber, hd, if_true, hsplit, fractionOf_digits hf hhead, hx, hne,
    Bool.false_and, Bool.false_eq_true, if_false]

end

/-- A number is none of the words that are values. -/
theorem word_of_isDigit {c : Char} (h : isDigit c = true) (negative : Bool) (r : List Char) :
    word (sign negative ++ c :: r) = none := by
  have hne {d : Char} (hd : isDigit d = false) : ¬ d = c := by
    rintro rfl
    rw [h] at hd
    cases hd
  cases negative <;>
    simp [word, words, afterWord, sign, hne (show isDigit 'n' = false from rfl),
      hne (show isDigit 't' = false from rfl), hne (show isDigit 'f' = false from rfl),
      hne (show isDigit 'N' = false from rfl), hne (show isDigit 'I' = false from rfl),
      hne (show isDigit '-' = false from rfl)]

/-! ## Values -/

theorem skip_layout {l : List Char} (h : IsLayout l) (r : List Char) : skip (l ++ r) = skip r := by
  rw [skip, List.dropWhile_append_of_pos]
  · rfl
  · intro c hc
    obtain rfl | rfl | rfl := h c hc <;> rfl

theorem skip_cons {c : Char} (h : isSpace c = false) (r : List Char) : skip (c :: r) = c :: r := by
  simp [skip, h]

/-- What a value can begin with. -/
def startsValue (c : Char) : Bool := isDigit c || "-\"[\x7bntf".toList.contains c

theorem isSpace_of_startsValue {c : Char} (h : startsValue c = true) : isSpace c = false := by
  simp only [startsValue, Bool.or_eq_true, List.contains_iff_mem] at h
  simp only [isSpace, Bool.or_eq_false_iff, decide_eq_false_iff_not]
  refine ⟨⟨⟨?_, ?_⟩, ?_⟩, ?_⟩ <;>
  · rintro rfl
    revert h
    decide

theorem IsWhole.exists_cons {ds : List Char} (h : IsWhole ds) :
    ∃ d t, ds = d :: t ∧ isDigit d = true := by
  cases ds with
  | nil => exact absurd rfl h.nonempty
  | cons d t => exact ⟨d, t, rfl, h.digits d List.mem_cons_self⟩

theorem Bare.exists_cons {w : List Char} {v : Json} (h : Bare w v) :
    ∃ c t, w = c :: t ∧ startsValue c = true := by
  have hnumber (negative : Bool) {ds : List Char} (h : IsWhole ds) (r : List Char) :
      ∃ c t, sign negative ++ (ds ++ r) = c :: t ∧ startsValue c = true := by
    obtain ⟨d, t, rfl, hd⟩ := h.exists_cons
    cases negative
    · exact ⟨d, t ++ r, rfl, by simp [startsValue, hd]⟩
    · exact ⟨'-', d :: t ++ r, rfl, by decide⟩
  cases h with
  | word h =>
    simp only [plainWords, List.mem_cons, Prod.mk.injEq, List.not_mem_nil, or_false] at h
    obtain ⟨rfl, -⟩ | ⟨rfl, -⟩ | ⟨rfl, -⟩ := h <;> exact ⟨_, _, rfl, by decide⟩
  | whole negative h _ => simpa using hnumber negative h []
  | decimal negative h _ _ => exact hnumber negative h _

theorem Spells.exists_cons {n : Nat} {w : List Char} {v : Json} (h : Spells n w (.value v)) :
    ∃ c t, w = c :: t ∧ startsValue c = true := by
  cases h with
  | bare h => exact h.exists_cons
  | string _ | emptyArray _ | array _ | emptyObject _ | object _ => exact ⟨_, _, rfl, by decide⟩

/-- What comes behind a value within a text ends a number: a blank, a comma or a bracket. -/
theorem endsNumber_layout {l t r : List Char} (hl : IsLayout l)
    (ht : t = [] ∨ t.head? = some ',') {c : Char} (hc : c = ']' ∨ c = '\x7d') :
    EndsNumber (l ++ (t ++ c :: r)) := by
  intro d hd
  cases l with
  | cons e l =>
    cases hd
    obtain rfl | rfl | rfl := hl d List.mem_cons_self <;> decide
  | nil =>
    cases t with
    | cons e t =>
      cases hd
      obtain ht | ht := ht
      · cases ht
      · cases ht
        decide
    | nil =>
      cases hd
      obtain rfl | rfl := hc <;> decide

section
variable {room f : Nat} {r : List Char}

theorem value_number {ds t : List Char} {result : Except Refusal (Json × List Char)}
    (negative : Bool) (hd : IsWhole ds) (h : unsignedNumber negative (ds ++ t) = some result) :
    value room (f + 1) (sign negative ++ (ds ++ t)) = result := by
  obtain ⟨d, u, rfl, hdigit⟩ := hd.exists_cons
  have hword := word_of_isDigit hdigit negative (u ++ t)
  have hne {c : Char} (hc : isDigit c = false) : d ≠ c := by
    rintro rfl
    rw [hdigit] at hc
    cases hc
  have hscalar : scalar (sign negative ++ (d :: u ++ t)) = result := by
    cases negative with
    | false =>
      have hn : number (d :: u ++ t) = some result := by
        rw [List.cons_append, number]
        · exact h
        · exact fun _ e => hne rfl (List.cons.inj e).1
      rw [scalar, List.cons_append, hword]
      simp only [sign, Bool.false_eq_true, if_false, List.nil_append]
      rw [← List.cons_append, hn]
      rfl
    | true =>
      rw [scalar, List.cons_append, hword]
      simp only [sign, if_true, List.cons_append, List.nil_append, number]
      rw [List.cons_append] at h
      rw [h]
      rfl
  cases negative with
  | false => rwa [sign, if_neg (by decide), List.nil_append, List.cons_append,
      value_scalar (hne rfl) (hne rfl) (hne rfl)]
  | true =>
    rw [sign, if_pos rfl, List.singleton_append, value_scalar (by decide) (by decide) (by decide)]
    exact hscalar

theorem value_word {w : String} {v : Json} (h : (w, v) ∈ plainWords) :
    value room (f + 1) (w.toList ++ r) = .ok (v, r) := by
  simp only [plainWords, List.mem_cons, Prod.mk.injEq, List.not_mem_nil, or_false] at h
  obtain ⟨rfl, rfl⟩ | ⟨rfl, rfl⟩ | ⟨rfl, rfl⟩ := h <;>
    simp [value_scalar, scalar, word, words, afterWord, ← String.length_toList]

theorem value_bare {w : List Char} {v : Json} (h : Bare w v) (hr : EndsNumber r) :
    value room (f + 1) (w ++ r) = .ok (v, r) := by
  cases h with
  | word h => exact value_word h
  | whole negative h hshort =>
    rw [List.append_assoc]
    refine value_number negative h ?_
    rw [unsignedNumber_whole negative h hr, if_neg (Nat.not_lt.2 hshort)]
  | decimal negative hd hf he =>
    have h := @value_number room f _ _ _ negative hd
      (unsignedNumber_decimal negative hd hf he hr)
    simpa using h

theorem value_string {cs : List Char} {text : Points} (h : Quoted cs text) :
    value room (f + 1) ('"' :: (cs ++ '"' :: r)) = .ok (.str text, r) := by
  rw [value_quote, string_quoted h]
  rfl

theorem value_emptyArray {l : List Char} (hl : IsLayout l) :
    value (room + 1) (f + 1) ('[' :: (l ++ ']' :: r)) = .ok (.arr [], r) := by
  rw [value_bracket, skip_layout hl, skip_cons (by decide)]
  rfl

theorem value_emptyObject {l : List Char} (hl : IsLayout l) :
    value (room + 1) (f + 1) ('\x7b' :: (l ++ '\x7d' :: r)) = .ok (.obj [], r) := by
  rw [value_brace, skip_layout hl, skip_cons (by decide)]
  rfl

/-! ## Items and members -/

/-- The items are read, up to the bracket behind them. -/
def ReadsItems (room : Nat) (w : List Char) (vs : List Json) : Prop :=
  ∀ f r, 2 * w.length + 1 ≤ f → itemsRest room f (skip (w ++ ']' :: r)) = .ok (vs, r)

/-- The members are read, up to the brace behind them. -/
def ReadsMembers (room : Nat) (w : List Char) (ms : List (Points × Json)) : Prop :=
  ∀ f r, 2 * w.length + 1 ≤ f → membersRest room f (skip (w ++ '\x7d' :: r)) = .ok (ms, r)

/-- The part is read as what it spells. -/
def Part.ReadFrom (room : Nat) (w : List Char) : Part → Prop
  | .value v => ∀ f r, 2 * w.length ≤ f → EndsNumber r → Json.value room f (w ++ r) = .ok (v, r)
  | .items vs => ReadsItems room w vs ∧ ∃ c t, skip w = c :: t ∧ c ≠ ']'
  | .moreItems vs => w = [] ∧ vs = [] ∨ ∃ w', w = ',' :: w' ∧ ReadsItems room w' vs
  | .members ms => ReadsMembers room w ms ∧ ∃ c t, skip w = c :: t ∧ c ≠ '\x7d'
  | .moreMembers ms => w = [] ∧ ms = [] ∨ ∃ w', w = ',' :: w' ∧ ReadsMembers room w' ms

theorem itemsRest_last {cs t : List Char} {v : Json} (h : value room f cs = .ok (v, t))
    (ht : skip t = ']' :: r) : itemsRest room (f + 1) cs = .ok ([v], r) := by
  simp [itemsRest_succ, h, ht, bind, Except.bind, pure, Except.pure]

theorem itemsRest_more {cs t u : List Char} {v : Json} {vs : List Json}
    (h : value room f cs = .ok (v, t)) (ht : skip t = ',' :: u)
    (hu : itemsRest room f (skip u) = .ok (vs, r)) :
    itemsRest room (f + 1) cs = .ok (v :: vs, r) := by
  simp [itemsRest_succ, h, ht, hu, bind, Except.bind, pure, Except.pure]

theorem membersRest_last {cs key t u : List Char} {text : Points} {v : Json}
    (hk : Quoted key text) (hcs : cs = '"' :: (key ++ '"' :: t)) {t' : List Char}
    (ht : skip t = ':' :: t') (h : value room f (skip t') = .ok (v, u))
    (hu : skip u = '\x7d' :: r) :
    membersRest room (f + 1) cs = .ok ([(text, v)], r) := by
  rw [hcs, membersRest_quote, string_quoted hk]
  simp [ht, h, hu, bind, Except.bind, pure, Except.pure]

theorem membersRest_more {cs key t u u' : List Char} {text : Points} {v : Json}
    {ms : List (Points × Json)} (hk : Quoted key text) (hcs : cs = '"' :: (key ++ '"' :: t))
    {t' : List Char} (ht : skip t = ':' :: t') (h : value room f (skip t') = .ok (v, u))
    (hu : skip u = ',' :: u') (hms : membersRest room f (skip u') = .ok (ms, r)) :
    membersRest room (f + 1) cs = .ok ((text, v) :: ms, r) := by
  rw [hcs, membersRest_quote, string_quoted hk]
  simp [ht, h, hu, hms, bind, Except.bind, pure, Except.pure]

end

theorem Spells.length_pos {n : Nat} {w : List Char} {v : Json} (h : Spells n w (.value v)) :
    0 < w.length := by
  obtain ⟨c, t, rfl, -⟩ := h.exists_cons
  exact Nat.succ_pos _

theorem Spells.head?_moreItems {n : Nat} {t : List Char} {vs : List Json}
    (h : Spells n t (.moreItems vs)) : t = [] ∨ t.head? = some ',' := by
  cases h with
  | noMoreItems => exact .inl rfl
  | moreItems _ => exact .inr rfl

theorem Spells.head?_moreMembers {n : Nat} {t : List Char} {ms : List (Points × Json)}
    (h : Spells n t (.moreMembers ms)) : t = [] ∨ t.head? = some ',' := by
  cases h with
  | noMoreMembers => exact .inl rfl
  | moreMembers _ => exact .inr rfl

theorem skip_append {w t : List Char} {c : Char} (h : skip w = c :: t) (r : List Char) :
    skip (w ++ r) = c :: (t ++ r) := by
  rw [skip] at h
  rw [skip, List.dropWhile_append, h]
  rfl

theorem value_array {w r : List Char} {vs : List Json} {room f : Nat} (h : ReadsItems room w vs)
    (hstart : ∃ c t, skip w = c :: t ∧ c ≠ ']') (hf : 2 * w.length + 1 ≤ f) :
    value (room + 1) (f + 1) ('[' :: (w ++ ']' :: r)) = .ok (.arr vs, r) := by
  obtain ⟨c, t, hc, hne⟩ := hstart
  have hitems := h f r hf
  rw [skip_append hc] at hitems
  rw [value_bracket, skip_append hc]
  split
  · rename_i heq
    exact absurd (List.cons.inj heq).1 hne
  · rw [hitems]
    rfl

theorem value_object {w r : List Char} {ms : List (Points × Json)} {room f : Nat}
    (h : ReadsMembers room w ms) (hstart : ∃ c t, skip w = c :: t ∧ c ≠ '\x7d')
    (hf : 2 * w.length + 1 ≤ f) :
    value (room + 1) (f + 1) ('\x7b' :: (w ++ '\x7d' :: r)) = .ok (ofMembers ms, r) := by
  obtain ⟨c, t, hc, hne⟩ := hstart
  have hmembers := h f r hf
  rw [skip_append hc] at hmembers
  rw [value_brace, skip_append hc]
  split
  · rename_i heq
    exact absurd (List.cons.inj heq).1 hne
  · rw [hmembers]
    rfl

theorem readsItems {n : Nat} {l w l' t : List Char} {v : Json} {vs : List Json} (hl : IsLayout l)
    (hv : Spells n w (.value v)) (hl' : IsLayout l') (ht : Spells n t (.moreItems vs))
    (hread : (Part.value v).ReadFrom n w) (hmore : (Part.moreItems vs).ReadFrom n t) :
    ReadsItems n (l ++ (w ++ (l' ++ t))) (v :: vs) := by
  intro f r hf
  obtain ⟨f, rfl⟩ : ∃ f', f = f' + 1 := ⟨f - 1, by omega⟩
  obtain ⟨c, u, rfl, hc⟩ := hv.exists_cons
  simp only [List.length_append, List.length_cons] at hf
  have hvalue := hread f (l' ++ (t ++ ']' :: r)) (by simp only [List.length_cons]; omega)
    (endsNumber_layout hl' ht.head?_moreItems (.inl rfl))
  have hskip : skip (l ++ (c :: u ++ (l' ++ t)) ++ ']' :: r) =
      c :: u ++ (l' ++ (t ++ ']' :: r)) := by
    rw [List.append_assoc, skip_layout hl]
    simp only [List.append_assoc, List.cons_append]
    exact skip_cons (isSpace_of_startsValue hc) _
  rw [hskip]
  obtain ⟨rfl, rfl⟩ | ⟨w', rfl, hw'⟩ := hmore
  · exact itemsRest_last hvalue (by rw [skip_layout hl']; rfl)
  · refine itemsRest_more hvalue (u := w' ++ ']' :: r) (by rw [skip_layout hl']; rfl) ?_
    simp only [List.length_cons] at hf
    exact hw' f r (by omega)

theorem readsMembers {n k : Nat} {l cs l' w l'' t : List Char} {text : Points} {v : Json}
    {ms : List (Points × Json)} (hl : IsLayout l) (hk : Quoted cs text) (hl' : IsLayout l')
    (hv : Spells n w (.value v)) (hl'' : IsLayout l'') (ht : Spells n t (.moreMembers ms))
    (hread : (Part.value v).ReadFrom n w) (hmore : (Part.moreMembers ms).ReadFrom n t) :
    ReadsMembers n
      (l ++ '"' :: (cs ++ '"' :: (List.replicate k ' ' ++ ':' :: (l' ++ (w ++ (l'' ++ t))))))
      ((text, v) :: ms) := by
  intro f r hf
  obtain ⟨f, rfl⟩ : ∃ f', f = f' + 1 := ⟨f - 1, by omega⟩
  obtain ⟨c, u, rfl, hc⟩ := hv.exists_cons
  simp only [List.length_append, List.length_cons] at hf
  have hvalue := hread f (l'' ++ (t ++ '\x7d' :: r)) (by simp only [List.length_cons]; omega)
    (endsNumber_layout hl'' ht.head?_moreMembers (.inr rfl))
  have hvalue' : value n f (skip (l' ++ (c :: u ++ (l'' ++ (t ++ '\x7d' :: r))))) =
      .ok (v, l'' ++ (t ++ '\x7d' :: r)) := by
    rw [skip_layout hl', List.cons_append, skip_cons (isSpace_of_startsValue hc)]
    exact hvalue
  have hcolon : skip (List.replicate k ' ' ++
      ':' :: (l' ++ (c :: u ++ (l'' ++ (t ++ '\x7d' :: r))))) =
        ':' :: (l' ++ (c :: u ++ (l'' ++ (t ++ '\x7d' :: r)))) := by
    rw [skip_layout (.spaces k), skip_cons (by decide)]
  rw [List.append_assoc, skip_layout hl, List.cons_append, skip_cons (by decide)]
  simp only [List.append_assoc, List.cons_append]
  obtain ⟨rfl, rfl⟩ | ⟨w', rfl, hw'⟩ := hmore
  · exact membersRest_last hk rfl hcolon hvalue' (by rw [skip_layout hl'']; rfl)
  · have hcomma : skip (l'' ++ (',' :: w' ++ '\x7d' :: r)) = ',' :: (w' ++ '\x7d' :: r) := by
      rw [skip_layout hl'']
      rfl
    refine membersRest_more hk rfl hcolon hvalue' hcomma ?_
    simp only [List.length_cons] at hf
    exact hw' f r (by omega)

/-- The reader takes every part as what it spells. -/
theorem Spells.readFrom {n : Nat} {w : List Char} {p : Part} (h : Spells n w p) :
    p.ReadFrom n w := by
  induction h with
  | @bare n _ _ h =>
    intro f r hf hr
    have hpos := (bare (n := n) h).length_pos
    obtain ⟨f, rfl⟩ : ∃ f', f = f' + 1 := ⟨f - 1, by omega⟩
    exact value_bare h hr
  | @string n _ _ h =>
    intro f r hf _
    obtain ⟨f, rfl⟩ : ∃ f', f = f' + 1 := ⟨f - 1, by simp at hf; omega⟩
    have h := @value_string n f r _ _ h
    simpa using h
  | emptyArray hl =>
    intro f r hf _
    obtain ⟨f, rfl⟩ : ∃ f', f = f' + 1 := ⟨f - 1, by simp at hf; omega⟩
    simpa using value_emptyArray hl
  | array h ih =>
    intro f r hf _
    simp only [List.length_cons, List.length_append, List.length_nil] at hf
    obtain ⟨f, rfl⟩ : ∃ f', f = f' + 1 := ⟨f - 1, by omega⟩
    have h := value_array (f := f) (r := r) ih.1 ih.2 (by omega)
    simpa using h
  | emptyObject hl =>
    intro f r hf _
    obtain ⟨f, rfl⟩ : ∃ f', f = f' + 1 := ⟨f - 1, by simp at hf; omega⟩
    simpa using value_emptyObject hl
  | object h ih =>
    intro f r hf _
    simp only [List.length_cons, List.length_append, List.length_nil] at hf
    obtain ⟨f, rfl⟩ : ∃ f', f = f' + 1 := ⟨f - 1, by omega⟩
    have h := value_object (f := f) (r := r) ih.1 ih.2 (by omega)
    simpa using h
  | @items _ l w l' t v vs hl hv hl' ht ihv iht =>
    refine ⟨readsItems hl hv hl' ht ihv iht, ?_⟩
    obtain ⟨c, u, rfl, hc⟩ := hv.exists_cons
    refine ⟨c, _, by rw [skip_layout hl]; exact skip_cons (isSpace_of_startsValue hc) _, ?_⟩
    rintro rfl
    revert hc
    decide
  | noMoreItems => exact .inl ⟨rfl, rfl⟩
  | moreItems h ih => exact .inr ⟨_, rfl, ih.1⟩
  | members hl hk hn hl' hv hl'' ht ihv iht =>
    exact ⟨readsMembers hl hk hl' hv hl'' ht ihv iht, '"', _,
      by rw [skip_layout hl]; exact skip_cons (by decide) _, by decide⟩
  | noMoreMembers => exact .inl ⟨rfl, rfl⟩
  | moreMembers h ih => exact .inr ⟨_, rfl, ih.1⟩

/-- A text that spells a value, with blanks around it, is read as that value. -/
theorem readWithin_of_spells {n room : Nat} {l w l' : List Char} {v : Json} (hl : IsLayout l)
    (h : Spells n w (.value v)) (hl' : IsLayout l') (hn : n ≤ room) :
    readWithin room (l ++ (w ++ l')) = .ok v := by
  obtain ⟨c, t, rfl, hc⟩ := h.exists_cons
  have hmark : (l ++ (c :: t ++ l')).head? ≠ some '\ufeff' := by
    cases l with
    | nil =>
      rintro ⟨⟩
      revert hc
      decide
    | cons d l =>
      rintro ⟨⟩
      obtain h | h | h := hl '\ufeff' List.mem_cons_self <;> revert h <;> decide
  have hskip : skip (l ++ (c :: t ++ l')) = c :: t ++ l' := by
    rw [skip_layout hl]
    exact skip_cons (isSpace_of_startsValue hc) _
  have hend : EndsNumber l' := by
    have h := endsNumber_layout (t := []) (r := []) hl' (.inl rfl) (.inl (rfl : ']' = ']'))
    cases l' with
    | nil => exact fun d hd => by cases hd
    | cons d l' => exact h
  have hvalue := h.readFrom (2 * (l ++ (c :: t ++ l')).length + 1) l'
    (by simp only [List.length_append]; omega) hend
  have hread : readWithin n (l ++ (c :: t ++ l')) = .ok v := by
    rw [readWithin, if_neg hmark, hskip, hvalue]
    simp only [bind, Except.bind]
    rw [← List.append_nil l', skip_layout hl']
    rfl
  exact readWithin_ok_of_le hn hread

/-- Tabulators are blanks of JSON text as well. -/
theorem readWithin_object {n : Nat} {b w : List Char} {ms : List (Points × Json)}
    (hb : ∀ c ∈ b, isSpace c = true) (h : Spells n w (.members ms)) :
    readWithin (n + 1) ('\x7b' :: (b ++ w ++ ['\x7d'])) = .ok (ofMembers ms) := by
  have hskip (r : List Char) : skip (b ++ r) = skip r := List.dropWhile_append_of_pos hb
  obtain ⟨hread, c, t, hc, hne⟩ := h.readFrom
  have hmembers : ReadsMembers n (b ++ w) ms := by
    intro f r hf
    rw [List.append_assoc, hskip]
    exact hread f r (by rw [List.length_append] at hf; omega)
  have hobject := value_object (r := []) hmembers ⟨c, t, by rw [hskip, hc], hne⟩
    (f := 2 * ('\x7b' :: (b ++ w ++ ['\x7d'])).length) (by
      simp only [List.length_cons, List.length_append]
      omega)
  rw [readWithin, if_neg (by simp), skip_cons (by decide), hobject]
  rfl

end RouteCompiler.Json
