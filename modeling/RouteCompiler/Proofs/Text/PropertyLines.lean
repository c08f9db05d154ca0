import RouteCompiler.Proofs.Text.UnicodeEscape

/-!
Property files, read as `java.util.Properties` reads characters, that is, from a `Reader`; from an
`InputStream` it takes each byte for a character first, and so changes all text beyond ASCII. Lines
are logical ones: a backslash before a line end continues a line on the next one. The key of a line
ends at the first separator, and a backslash escapes what is behind it. A value that is written as
it is comes back exactly if it stays in its line, begins with no blank and has no backslash.
-/

namespace RouteCompiler.PropertyLines

open Text

/-! ## The reader -/

def isBlank (c : Char) : Bool := c = ' ' || c = '\t' || c = '\x0c'

def isLineEnd (c : Char) : Bool := c = '\n' || c = '\r'

/-- Where the reader of lines is. -/
inductive Place
  /-- Before the first character of a line. -/
  | start
  | comment
  | inside
  /-- Behind a backslash; `begun` if the line has characters before it. -/
  | escaped (begun : Bool)
  /-- Before the first character of a line that continues one; behind a carriage return, a line feed
  still belongs to the line end. -/
  | continued (returned : Bool)

/-- Put a character before the first line. -/
def push (c : Char) (lines : List (List Char)) : List (List Char) := lines.modifyHead (c :: ·)

/-- The logical lines of a text. Behind the first character of a line the rest of the line comes
first. -/
def lines : Place → List Char → List (List Char)
  | .start, [] => []
  | .comment, [] => []
  | .inside, [] => [[]]
  | .escaped _, [] => [[]]
  | .continued _, [] => [[]]
  | .start, c :: cs =>
    if isLineEnd c || isBlank c then lines .start cs
    else if c = '#' || c = '!' then lines .comment cs
    else if c = '\\' then lines (.escaped false) cs
    else push c (lines .inside cs)
  | .comment, c :: cs => if isLineEnd c then lines .start cs else lines .comment cs
  | .inside, c :: cs =>
    if isLineEnd c then [] :: lines .start cs
    else if c = '\\' then lines (.escaped true) cs
    else push c (lines .inside cs)
  | .escaped begun, c :: cs =>
    if isLineEnd c then lines (if begun then .continued (c = '\r') else .start) cs
    else push '\\' (push c (lines .inside cs))
  | .continued returned, c :: cs =>
    if isBlank c || (returned && c = '\n') then lines (.continued false) cs
    else if isLineEnd c then [] :: lines .start cs
    else if c = '\\' then lines (.escaped true) cs
    else push c (lines .inside cs)

def isSeparator (c : Char) : Bool := c = '=' || c = ':'

/-- The key of a line and what stands behind it, both as they are written; `escaped` if a backslash
stands before. -/
def cutKey (escaped : Bool) : List Char → List Char × List Char
  | [] => ([], [])
  | c :: cs =>
    if !escaped && (isSeparator c || isBlank c) then ([], c :: cs)
    else
      let cut := cutKey (!escaped && c = '\\') cs
      (c :: cut.1, cut.2)

/-- The value behind a key: blanks, with one separator among them, come before it. -/
def valueText (cs : List Char) : List Char :=
  match cs.dropWhile isBlank with
  | [] => []
  | c :: cs => if isSeparator c then cs.dropWhile isBlank else c :: cs

/-- What a backslash makes of a character. -/
def unescaped : Char → Char
  | 't' => '\t'
  | 'n' => '\n'
  | 'r' => '\r'
  | 'f' => '\x0c'
  | c => c

def rules : EscapeRules where
  other := fun c => codeUnits (unescaped c)
  dangling := []
  repeats := false

/-- A key with its value, both in code units. -/
abbrev Entry := List Nat × List Nat

def entry (line : List Char) : Option Entry := do
  let key ← rules.decode (cutKey false line).1
  let value ← rules.decode (valueText (cutKey false line).2)
  return (key, value)

/-- The entries of a text, in its order; there are none if an escape in it is malformed. -/
def read (cs : List Char) : Option (List Entry) := (lines .start cs).mapM entry

/-! ## Texts that stay in their line -/

/-- Nothing ends the line, and nothing is escaped. -/
def Unbroken (cs : List Char) : Prop := ∀ c ∈ cs, isLineEnd c = false ∧ c ≠ '\\'

/-- A character that means nothing in a key but itself. -/
def isOrdinary (c : Char) : Bool :=
  !(isLineEnd c || isBlank c || isSeparator c || c = '\\' || c = '#' || c = '!')

/-- A key that needs no escapes. -/
def IsKey (cs : List Char) : Prop := cs ≠ [] ∧ ∀ c ∈ cs, isOrdinary c = true

/-- A value that is written as it is. -/
structure IsPlain (cs : List Char) : Prop where
  unbroken : Unbroken cs
  head : ∀ c ∈ cs.head?, isBlank c = false

instance (cs : List Char) : Decidable (Unbroken cs) :=
  decidable_of_iff (cs.all fun c => !isLineEnd c && c ≠ '\\') (by simp [Unbroken])

instance (cs : List Char) : Decidable (IsKey cs) :=
  decidable_of_iff (cs ≠ [] ∧ cs.all isOrdinary = true) (by simp [IsKey])

theorem head_iff {cs : List Char} :
    cs.head?.any isBlank = false ↔ ∀ c ∈ cs.head?, isBlank c = false := by
  cases cs <;> simp

instance (cs : List Char) : Decidable (IsPlain cs) :=
  decidable_of_iff (Unbroken cs ∧ cs.head?.any isBlank = false)
    ⟨fun h => ⟨h.1, head_iff.1 h.2⟩, fun h => ⟨h.unbroken, head_iff.2 h.head⟩⟩

theorem IsKey.ordinary {key : List Char} (h : IsKey key) {c : Char} (hc : c ∈ key) :
    isLineEnd c = false ∧ isBlank c = false ∧ isSeparator c = false ∧ c ≠ '\\' ∧ c ≠ '#' ∧
      c ≠ '!' := by
  simpa [isOrdinary, and_assoc] using h.2 c hc

theorem IsKey.unbroken {key : List Char} (h : IsKey key) : Unbroken key := by
  intro c hc
  obtain ⟨hend, -, -, hescape, -⟩ := h.ordinary hc
  exact ⟨hend, hescape⟩

theorem lines_inside_cons {c : Char} (hend : isLineEnd c = false) (hescape : c ≠ '\\')
    (cs : List Char) : lines .inside (c :: cs) = push c (lines .inside cs) := by
  rw [lines, hend, if_neg Bool.false_ne_true, if_neg hescape]

theorem lines_inside_append {xs : List Char} (h : Unbroken xs) (ys : List Char) :
    lines .inside (xs ++ ys) = (lines .inside ys).modifyHead (xs ++ ·) := by
  induction xs with
  | nil => exact (congrFun List.modifyHead_id _).symm
  | cons c xs ih =>
    obtain ⟨hend, hescape⟩ := h c List.mem_cons_self
    rw [List.cons_append, lines_inside_cons hend hescape,
      ih fun d hd => h d (List.mem_cons_of_mem c hd), push, List.modifyHead_modifyHead]
    rfl

theorem lines_key_append {key : List Char} (h : IsKey key) (ys : List Char) :
    lines .start (key ++ ys) = (lines .inside ys).modifyHead (key ++ ·) := by
  rw [← lines_inside_append h.unbroken]
  cases key with
  | nil => exact absurd rfl h.1
  | cons c cs =>
    obtain ⟨hend, hblank, -, hescape, hhash, hmark⟩ := h.ordinary List.mem_cons_self
    rw [List.cons_append, lines_inside_cons hend hescape, lines]
    simp [hend, hblank, hescape, hhash, hmark]

theorem cutKey_append {key : List Char} (h : IsKey key) (rest : List Char) :
    cutKey false (key ++ '=' :: rest) = (key, '=' :: rest) := by
  have hordinary : ∀ c ∈ key, isBlank c = false ∧ isSeparator c = false ∧ c ≠ '\\' := by
    intro c hc
    obtain ⟨-, hblank, hseparator, hescape, -⟩ := h.ordinary hc
    exact ⟨hblank, hseparator, hescape⟩
  clear h
  induction key with
  | nil => rfl
  | cons c cs ih =>
    obtain ⟨⟨hblank, hseparator, hescape⟩, hcs⟩ := List.forall_mem_cons.1 hordinary
    simp [cutKey, hblank, hseparator, hescape, ih hcs]

theorem not_mem_of_unbroken {cs : List Char} (h : Unbroken cs) : '\\' ∉ cs :=
  fun hmem => (h _ hmem).2 rfl

/-- The entry of a line with a plain key. -/
theorem entry_key {key : List Char} (h : IsKey key) (v : List Char) :
    entry (key ++ '=' :: v) =
      (rules.decode (v.dropWhile isBlank)).map fun value => (units key, value) := by
  have hvalue : valueText ('=' :: v) = v.dropWhile isBlank := rfl
  rw [entry, cutKey_append h, hvalue, rules.decode_eq_units (not_mem_of_unbroken h.unbroken)]
  cases rules.decode (v.dropWhile isBlank) <;> rfl

theorem dropWhile_of_head {v : List Char} (h : ∀ c ∈ v.head?, isBlank c = false) :
    v.dropWhile isBlank = v := by
  cases v with
  | nil => rfl
  | cons c cs => exact List.dropWhile_cons_of_neg (by simp [h c rfl])

theorem lines_entry {key : List Char} (h : IsKey key) (ys : List Char) :
    lines .start (key ++ '=' :: ys) =
      (lines .inside ys).modifyHead (key ++ '=' :: ·) := by
  rw [lines_key_append h, lines_inside_cons rfl (by decide), push, List.modifyHead_modifyHead]
  rfl

/-- A plain value comes back, and the next line is read on its own. -/
theorem read_plain {key v : List Char} (hk : IsKey key) (hv : IsPlain v) (rest : List Char) :
    read (key ++ '=' :: (v ++ '\n' :: rest)) =
      (read rest).map ((units key, units v) :: ·) := by
  have hline : lines .start (key ++ '=' :: (v ++ '\n' :: rest)) =
      (key ++ '=' :: v) :: lines .start rest := by
    rw [lines_entry hk, lines_inside_append hv.unbroken]
    simp [lines, isLineEnd]
  rw [read, hline, List.mapM_cons, entry_key hk, dropWhile_of_head hv.head,
    rules.decode_eq_units (not_mem_of_unbroken hv.unbroken), read]
  cases (lines .start rest).mapM entry <;> rfl

/-! ## Texts that do not stay in their line -/

/-- How many code units a text has. -/
def size (cs : List Char) : Nat := (units cs).length

theorem size_cons (c : Char) (cs : List Char) :
    size (c :: cs) = (codeUnits c).length + size cs := by
  simp [size, units]

theorem size_lt_size_cons (c : Char) (cs : List Char) : size cs < size (c :: cs) := by
  have hpos := length_codeUnits_pos c
  rw [size_cons]
  omega

namespace Place

/-- Behind the first character of a line. -/
def InLine : Place → Prop
  | .start => False
  | .comment => False
  | .inside => True
  | .escaped begun => begun = true
  | .continued _ => True

/-- What has been read and is not yet in a line. -/
def pending : Place → List Char
  | .escaped _ => ['\\']
  | _ => []

/-- The line end that is escaped takes in the line feed behind it. -/
def TakesLineFeed : Place → Prop
  | .escaped _ => True
  | .continued returned => returned = true
  | _ => False

end Place

/-- The rest of a line ends with `text`, or before. -/
def EndsAs (p : Place) (text line : List Char) : Prop :=
  match p with
  | .continued _ => size line ≤ size text
  | p => (line = p.pending ++ text ∧ ∀ c ∈ text, isLineEnd c = false) ∨
      size line < size (p.pending ++ text)

/-- A line ends with a text or before, or an escaped line end takes in the line feed behind it. -/
def Proceeds (p : Place) (text rest : List Char) : Prop :=
  (∃ line later, lines p (text ++ '\n' :: rest) = line :: later ∧ EndsAs p text line) ∨
  ((text = [] ∧ p.TakesLineFeed ∨ ∃ c ∈ text.getLast?, c = '\\' ∨ c = '\r') ∧
    ∃ front, lines p (text ++ '\n' :: rest) =
      (lines (.continued false) rest).modifyHead (front ++ ·))

section
variable {c : Char} {text rest : List Char} {p p' : Place}

theorem last_of_takes
    (h : text = [] ∧ p.TakesLineFeed ∨ ∃ d ∈ text.getLast?, d = '\\' ∨ d = '\r')
    (hc : p.TakesLineFeed → c = '\\' ∨ c = '\r') :
    ∃ d ∈ (c :: text).getLast?, d = '\\' ∨ d = '\r' := by
  obtain ⟨rfl, htakes⟩ | ⟨d, hd, hlast⟩ := h
  · exact ⟨c, rfl, hc htakes⟩
  · refine ⟨d, ?_, hlast⟩
    rw [List.getLast?_cons, hd]
    rfl

/-- One character further, `read` of which goes into the line. -/
theorem Proceeds.cons (h : Proceeds p' text rest) (read : List Char)
    (hlines : lines p (c :: text ++ '\n' :: rest) =
      (lines p' (text ++ '\n' :: rest)).modifyHead (read ++ ·))
    (hends : ∀ line, EndsAs p' text line → EndsAs p (c :: text) (read ++ line))
    (htakes : p'.TakesLineFeed → c = '\\' ∨ c = '\r') : Proceeds p (c :: text) rest := by
  obtain ⟨line, later, hline, hend⟩ | ⟨hlast, front, hfront⟩ := h
  · refine .inl ⟨read ++ line, later, ?_, hends line hend⟩
    rw [hlines, hline]
    rfl
  · refine .inr ⟨.inr (last_of_takes hlast htakes), read ++ front, ?_⟩
    rw [hlines, hfront, List.modifyHead_modifyHead]
    simp only [Function.comp_def, List.append_assoc]

theorem Proceeds.of_lines_eq (h : Proceeds p' text rest)
    (hlines : lines p (c :: text ++ '\n' :: rest) = lines p' (text ++ '\n' :: rest))
    (hends : ∀ line, EndsAs p' text line → EndsAs p (c :: text) line)
    (htakes : p'.TakesLineFeed → c = '\\' ∨ c = '\r') : Proceeds p (c :: text) rest :=
  h.cons [] (hlines.trans (congrFun List.modifyHead_id _).symm) hends htakes

theorem proceeds_inside (hi : Proceeds .inside text rest)
    (he : Proceeds (.escaped true) text rest) : Proceeds .inside (c :: text) rest := by
  by_cases hend : isLineEnd c = true
  · refine .inl ⟨[], lines .start (text ++ '\n' :: rest), ?_, .inr ?_⟩
    · rw [List.cons_append, lines, if_pos hend]
    · exact Nat.lt_of_le_of_lt (Nat.zero_le _) (size_lt_size_cons c text)
  have hend' := Bool.eq_false_iff.2 hend
  by_cases hc : c = '\\'
  · subst hc
    have hlines : lines .inside ('\\' :: text ++ '\n' :: rest) =
        lines (.escaped true) (text ++ '\n' :: rest) := by
      rw [List.cons_append, lines]
      rfl
    refine he.of_lines_eq hlines (fun line hline => ?_) fun _ => .inl rfl
    obtain ⟨rfl, hall⟩ | hlt := hline
    · exact .inl ⟨rfl, List.forall_mem_cons.2 ⟨rfl, hall⟩⟩
    · exact .inr hlt
  · refine hi.cons [c] (by rw [List.cons_append, lines_inside_cons hend' hc]; rfl)
      (fun line hline => ?_) False.elim
    obtain ⟨rfl, hall⟩ | hlt := hline
    · exact .inl ⟨rfl, List.forall_mem_cons.2 ⟨hend', hall⟩⟩
    · refine .inr ?_
      change size line < size text at hlt
      change size (c :: line) < size (c :: text)
      rw [size_cons, size_cons]
      omega

theorem proceeds_escaped (hi : Proceeds .inside text rest)
    (hc : ∀ returned, Proceeds (.continued returned) text rest) :
    Proceeds (.escaped true) (c :: text) rest := by
  have hbackslash := size_lt_size_cons '\\' (c :: text)
  have hless := size_lt_size_cons c text
  by_cases hend : isLineEnd c = true
  · refine (hc (c = '\r')).of_lines_eq ?_ (fun line hline => .inr ?_)
      fun h => .inr (of_decide_eq_true h)
    · rw [List.cons_append, lines, if_pos hend, if_pos rfl]
    · change size line ≤ size text at hline
      change size line < size ('\\' :: c :: text)
      omega
  · refine hi.cons ['\\', c] ?_ (fun line hline => ?_) False.elim
    · rw [List.cons_append, lines, if_neg hend, push, push, List.modifyHead_modifyHead]
      rfl
    · obtain ⟨rfl, hall⟩ | hlt := hline
      · exact .inl ⟨rfl, List.forall_mem_cons.2 ⟨Bool.eq_false_iff.2 hend, hall⟩⟩
      · refine .inr ?_
        change size line < size text at hlt
        change size ('\\' :: c :: line) < size ('\\' :: c :: text)
        simp only [size_cons]
        omega

theorem proceeds_continued (hi : Proceeds .inside text rest)
    (he : Proceeds (.escaped true) text rest) (hc : Proceeds (.continued false) text rest)
    (returned : Bool) :
    Proceeds (.continued returned) (c :: text) rest := by
  have hless := size_lt_size_cons c text
  by_cases hskip : (isBlank c || (returned && c = '\n')) = true
  · refine hc.of_lines_eq ?_ (fun line hline => ?_) nofun
    · rw [List.cons_append, lines, if_pos hskip]
    · exact Nat.le_trans hline (Nat.le_of_lt hless)
  by_cases hend : isLineEnd c = true
  · refine .inl ⟨[], lines .start (text ++ '\n' :: rest), ?_, Nat.zero_le _⟩
    rw [List.cons_append, lines, if_neg hskip, if_pos hend]
  by_cases hescape : c = '\\'
  · refine he.of_lines_eq ?_ (fun line hline => ?_) fun _ => .inl hescape
    · rw [List.cons_append, lines, if_neg hskip, if_neg hend, if_pos hescape]
    · obtain ⟨rfl, -⟩ | hlt := hline
      · exact hescape ▸ Nat.le_refl _
      · exact hescape ▸ Nat.le_of_lt hlt
  · refine hi.cons [c] ?_ (fun line hline => ?_) False.elim
    · rw [List.cons_append, lines, if_neg hskip, if_neg hend, if_neg hescape]
      rfl
    · change size (c :: line) ≤ size (c :: text)
      obtain ⟨rfl, -⟩ | hlt := hline
      · exact Nat.le_refl _
      · change size line < size text at hlt
        rw [size_cons, size_cons]
        omega

theorem proceeds (hp : p.InLine) : Proceeds p text rest := by
  induction text generalizing p with
  | nil =>
    cases p with
    | start => exact hp.elim
    | comment => exact hp.elim
    | inside => exact .inl ⟨[], lines .start rest, rfl, .inl ⟨rfl, nofun⟩⟩
    | escaped begun =>
      obtain rfl : begun = true := hp
      exact .inr ⟨.inl ⟨rfl, trivial⟩, [], (congrFun List.modifyHead_id _).symm⟩
    | continued returned =>
      cases returned with
      | false => exact .inl ⟨[], lines .start rest, rfl, Nat.le_refl _⟩
      | true => exact .inr ⟨.inl ⟨rfl, rfl⟩, [], (congrFun List.modifyHead_id _).symm⟩
  | cons c text ih =>
    have hi := ih (p := .inside) trivial
    have he := ih (p := .escaped true) rfl
    have hc (returned : Bool) := ih (p := .continued returned) trivial
    cases p with
    | start => exact hp.elim
    | comment => exact hp.elim
    | inside => exact proceeds_inside hi he
    | escaped begun =>
      obtain rfl : begun = true := hp
      exact proceeds_escaped hi hc
    | continued returned => exact proceeds_continued hi he (hc false) returned

end

/-! ## Values that do not come back -/

theorem shortens_rules : rules.Shortens where
  other := by
    intro c
    change (codeUnits (unescaped c)).length ≤ (codeUnits c).length
    unfold unescaped
    split
    case h_5 => exact Nat.le_refl _
    all_goals decide
  dangling := rfl

theorem size_dropWhile_le (cs : List Char) : size (cs.dropWhile isBlank) ≤ size cs := by
  induction cs with
  | nil => exact Nat.le_refl _
  | cons c cs ih =>
    rw [List.dropWhile_cons]
    split
    · exact Nat.le_trans ih (Nat.le_of_lt (size_lt_size_cons c cs))
    · exact Nat.le_refl _

/-- A value that ends its line without being plain is read as a shorter one. -/
theorem length_value_lt {v line : List Char} (hv : ¬ IsPlain v) (hline : EndsAs .inside v line)
    {value : List Nat} (h : rules.decode (line.dropWhile isBlank) = some value) :
    value.length < size v := by
  have hle : value.length ≤ size (line.dropWhile isBlank) :=
    EscapeRules.length_decodeFrom_le shortens_rules h
  have hdrop := size_dropWhile_le line
  obtain ⟨hsame, hends⟩ | hlt := hline
  · obtain rfl : line = v := hsame
    by_cases hblank : ∀ c ∈ line.head?, isBlank c = false
    · -- only a backslash is left
      have hmem : '\\' ∈ line := by
        by_contra hnot
        exact hv ⟨fun c hc => ⟨hends c hc, fun hb => hnot (hb ▸ hc)⟩, hblank⟩
      rw [dropWhile_of_head hblank] at h
      exact EscapeRules.length_decode_lt shortens_rules hmem h
    · cases line with
      | nil => simp at hblank
      | cons c cs =>
        have hc : isBlank c = true := by
          by_contra hc
          refine hblank fun d hd => ?_
          obtain rfl : c = d := Option.some.inj hd
          exact Bool.eq_false_iff.2 hc
        rw [List.dropWhile_cons_of_pos hc] at hle
        have hless := size_lt_size_cons c cs
        have htail := size_dropWhile_le cs
        omega
  · change size line < size v at hlt
    omega

/-- A line whose last character stands for itself, whatever line it continues. -/
structure Closes (front : List Char) (last : Char) : Prop where
  plain : IsPlain (front ++ [last])
  long : 5 ≤ front.length
  basic : last.toNat < 0x10000

theorem lines_continued {line : List Char} (h : IsPlain line) (hne : line ≠ []) (rest : List Char) :
    lines (.continued false) (line ++ '\n' :: rest) = line :: lines .start rest := by
  cases line with
  | nil => exact absurd rfl hne
  | cons c cs =>
    obtain ⟨hend, hescape⟩ := h.unbroken c List.mem_cons_self
    have hblank : isBlank c = false := h.head c rfl
    have hcs : Unbroken cs := fun d hd => h.unbroken d (List.mem_cons_of_mem c hd)
    rw [List.cons_append, lines, hblank, Bool.false_and, Bool.false_or, if_neg Bool.false_ne_true,
      if_neg (by simp [hend]), if_neg hescape, lines_inside_append hcs]
    simp [push, lines, isLineEnd]

theorem exists_dropWhile_append (xs : List Char) {ys : List Char}
    (h : ∀ c ∈ ys.head?, isBlank c = false) : ∃ zs, (xs ++ ys).dropWhile isBlank = zs ++ ys := by
  rw [List.dropWhile_append]
  split
  · exact ⟨[], dropWhile_of_head h⟩
  · exact ⟨_, rfl⟩

/-- A value that takes in the next line ends with the last character of that. -/
theorem value_ne_of_takes {v front : List Char} {last d : Char} (hd : v.getLast? = some d)
    (hlast : d = '\\' ∨ d = '\r') (hnext : Closes front last) {xs : List Char} {value : List Nat}
    (h : rules.decode (xs ++ (front ++ [last])) = some value) : value ≠ units v := by
  intro heq
  have hrepeats : rules.repeats = false := rfl
  have hsuffix := EscapeRules.codeUnits_suffix_of_decode hrepeats xs
    (not_mem_of_unbroken hnext.plain.unbroken) hnext.long h
  have hunits : units v = units v.dropLast ++ codeUnits d := by
    obtain ⟨v, rfl⟩ := List.getLast?_eq_some_iff.1 hd
    simp [units]
  have hd' : codeUnits d = [d.toNat] := by
    obtain rfl | rfl := hlast <;> decide
  rw [heq, hunits, hd', codeUnits, if_pos hnext.basic] at hsuffix
  obtain ⟨before, hbefore⟩ := hsuffix
  have hsame : last.toNat = d.toNat := (List.append_inj' hbefore rfl).2 |> List.head_eq_of_cons_eq
  obtain ⟨hend, hescape⟩ := hnext.plain.unbroken last (by simp)
  obtain rfl := Char.toNat_inj.1 hsame
  obtain rfl | rfl := hlast
  · exact hescape rfl
  · cases hend

/-- A value that is not plain does not come back. -/
theorem read_not_plain {key v front : List Char} {last : Char} (hk : IsKey key) (hv : ¬ IsPlain v)
    (hnext : Closes front last) {rest : List Char} {es : List Entry}
    (h : read (key ++ '=' :: (v ++ '\n' :: (front ++ [last] ++ '\n' :: rest))) = some es) :
    ∃ value later, es = (units key, value) :: later ∧ value ≠ units v := by
  obtain ⟨line, later, hlines, hvalue⟩ : ∃ line later,
      lines .inside (v ++ '\n' :: (front ++ [last] ++ '\n' :: rest)) = line :: later ∧
        ∀ value, rules.decode (line.dropWhile isBlank) = some value → value ≠ units v := by
    have hproceeds : Proceeds .inside v (front ++ [last] ++ '\n' :: rest) := proceeds trivial
    obtain ⟨line, later, hline, hend⟩ | ⟨htakes, before, hbefore⟩ := hproceeds
    · refine ⟨line, later, hline, fun value hdecode heq => ?_⟩
      have hlt := length_value_lt hv hend hdecode
      rw [heq] at hlt
      exact Nat.lt_irrefl _ hlt
    · rw [lines_continued hnext.plain (by simp)] at hbefore
      refine ⟨_, _, hbefore, fun value hdecode => ?_⟩
      obtain ⟨xs, hxs⟩ := exists_dropWhile_append before hnext.plain.head
      rw [hxs] at hdecode
      obtain ⟨-, hfalse⟩ | ⟨d, hd, hlast⟩ := htakes
      · exact hfalse.elim
      · exact value_ne_of_takes hd hlast hnext hdecode
  rw [read, lines_entry hk, hlines, List.modifyHead_cons, List.mapM_cons, entry_key hk] at h
  obtain ⟨e, he, h⟩ := Option.bind_eq_some_iff.1 h
  obtain ⟨value, hdecode, rfl⟩ := Option.map_eq_some_iff.1 he
  obtain ⟨later', -, h⟩ := Option.bind_eq_some_iff.1 h
  obtain rfl := Option.some.inj h
  exact ⟨value, later', rfl, hvalue value hdecode⟩

end RouteCompiler.PropertyLines
