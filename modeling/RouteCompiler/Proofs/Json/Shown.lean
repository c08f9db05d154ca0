import RouteCompiler.Proofs.Text.Literal

/-!
Shown texts of JSON values within a literal. Numbers, truth values and the marks of lists and
objects mean nothing to the reader of a literal, and in a quoted text all backslashes but those
before its own quote come in pairs. So a shown value stays within its literal unless a text in it,
at any depth, has quotes of both kinds: then its single quotes are shown with a backslash, and the
escaped quote behind that has two.
-/

namespace RouteCompiler

namespace Text

/-! ## Pieces of text -/

/-- The character means nothing to the reader of a literal. -/
def Inert (c : Char) : Prop := c ≠ '\\' ∧ c ≠ '\''

instance : DecidablePred Inert := fun c => inferInstanceAs (Decidable (c ≠ '\\' ∧ c ≠ '\''))

theorem inert_of_all {cs : List Char} (h : cs.all (fun c => decide (Inert c)) = true) :
    ∀ c ∈ cs, Inert c :=
  fun c hc => of_decide_eq_true (List.all_eq_true.1 h c hc)

/-- Exactly under the condition the reader comes through the piece, and else the literal ends in
it; the piece never ends in an open pair. -/
def Passes (P : Prop) (cs : List Char) : Prop :=
  (P → through false cs = some false) ∧ (¬ P → through false cs = none)

variable {P Q : Prop} {cs ds : List Char}

theorem Passes.iff (h : Passes P cs) : through false cs = some false ↔ P := by
  refine ⟨fun hcs => ?_, h.1⟩
  by_cases hP : P
  · exact hP
  · rw [h.2 hP] at hcs
    cases hcs

theorem Passes.congr (h : Passes P cs) (hPQ : P ↔ Q) : Passes Q cs := propext hPQ ▸ h

theorem Passes.append (h : Passes P cs) (h' : Passes Q ds) : Passes (P ∧ Q) (cs ++ ds) := by
  constructor
  · rintro ⟨hP, hQ⟩
    rw [through_append, h.1 hP, Option.bind_some, h'.1 hQ]
  · intro hPQ
    rw [through_append]
    by_cases hP : P
    · rw [h.1 hP, Option.bind_some, h'.2 fun hQ => hPQ ⟨hP, hQ⟩]
    · rw [h.2 hP, Option.bind_none]

theorem Passes.of_inert (h : ∀ c ∈ cs, Inert c) : Passes True cs := by
  refine ⟨fun _ => ?_, fun hT => absurd trivial hT⟩
  induction cs with
  | nil => rfl
  | cons c cs ih =>
    obtain ⟨hslash, hquote⟩ := h c List.mem_cons_self
    rw [through, if_neg hslash, if_neg fun hc => hquote hc.1]
    exact ih fun d hd => h d (List.mem_cons_of_mem _ hd)

theorem Passes.nil : Passes True [] := Passes.of_inert nofun

theorem Passes.flatMap {α : Type} {R : α → Prop} {f : α → List Char} {l : List α}
    (h : ∀ a ∈ l, Passes (R a) (f a)) : Passes (∀ a ∈ l, R a) (l.flatMap f) := by
  induction l with
  | nil => exact Passes.nil.congr (by simp)
  | cons a l ih =>
    rw [List.flatMap_cons]
    refine ((h a List.mem_cons_self).append ?_).congr List.forall_mem_cons.symm
    exact ih fun b hb => h b (List.mem_cons_of_mem _ hb)

/-- Pieces with commas between them. -/
theorem Passes.intercalate {α : Type} {R : α → Prop} {f : α → String} {l : List α}
    (h : ∀ a ∈ l, Passes (R a) (f a).toList) :
    Passes (∀ a ∈ l, R a) (", ".intercalate (l.map f)).toList := by
  have hcomma : ∀ c ∈ ", ".toList, Inert c := inert_of_all (by decide)
  induction l with
  | nil => exact Passes.nil.congr (by simp)
  | cons a l ih =>
    have ha := h a List.mem_cons_self
    have ih := ih fun b hb => h b (List.mem_cons_of_mem _ hb)
    by_cases hl : l = []
    · rw [hl]
      simpa using ha
    · have hne : l.map f ≠ [] := by simpa using hl
      rw [List.map_cons, String.intercalate_cons_of_ne_nil hne, String.toList_append,
        String.toList_append]
      exact ((ha.append (.of_inert hcomma)).append ih).congr (by simp)

/-- What stands between inert marks passes as it does alone. -/
theorem Passes.enclosed {front back : List Char} (h : Passes P cs) (hfront : ∀ c ∈ front, Inert c)
    (hback : ∀ c ∈ back, Inert c) : Passes P (front ++ cs ++ back) :=
  (((Passes.of_inert hfront).append h).append (.of_inert hback)).congr (by simp)

/-! ## Quoted texts -/

theorem inert_of_isDigit {c : Char} (h : c.isDigit = true) : Inert c := by
  constructor <;> (rintro rfl; exact absurd h (by decide))

theorem inert_hexDigits (w n : Nat) : ∀ c ∈ hexDigits w n, Inert c := by
  have hdigit : ∀ d, d < 16 → Inert (hexDigit d) := by decide
  induction w generalizing n with
  | zero => exact nofun
  | succ w ih =>
    intro c hc
    obtain hc | hc := List.mem_append.1 hc
    · exact ih _ c hc
    · rw [List.mem_singleton.1 hc]
      exact hdigit _ (Nat.mod_lt n (by omega))

/-- A backslash with a character behind it. -/
theorem passes_escape (c : Char) (h : ∀ d ∈ ds, Inert d) (hc : c ≠ '\'') :
    Passes True ('\\' :: c :: ds) := by
  have hpair : through false ['\\', c] = some false := by
    by_cases hslash : c = '\\' <;> simp [through, hslash, hc]
  have hfirst : Passes True ['\\', c] := ⟨fun _ => hpair, fun hT => absurd trivial hT⟩
  exact (hfirst.append (.of_inert h)).congr (by simp)

theorem passes_escapeShown {quote : Char} (hq : quote = '\'' ∨ quote = '"') (c : Char) :
    Passes (¬ (quote = '\'' ∧ c = '\'')) (escapeShown quote c) := by
  have htrue : ∀ {ds}, ¬ (quote = '\'' ∧ c = '\'') → Passes True ds →
      Passes (¬ (quote = '\'' ∧ c = '\'')) ds := fun hne h => h.congr (iff_of_true trivial hne)
  have hn : ∀ d ∈ ([] : List Char), Inert d := nofun
  by_cases hboth : quote = '\'' ∧ c = '\''
  · rw [hboth.1, hboth.2]
    exact ⟨fun h => absurd ⟨rfl, rfl⟩ h, fun _ => by decide⟩
  refine htrue hboth ?_
  rw [escapeShown]
  by_cases hcq : (c = quote || c = '\\') = true
  · rw [if_pos hcq]
    refine passes_escape c hn ?_
    rintro rfl
    simp_all
  rw [if_neg hcq]
  split
  · exact passes_escape 'n' hn (by decide)
  split
  · exact passes_escape 'r' hn (by decide)
  split
  · exact passes_escape 't' hn (by decide)
  split
  · -- a single quote shown as it is: the reader finds no backslash before it
    have hslash : c ≠ '\\' := fun h => hcq (by simp [h])
    refine ⟨fun _ => ?_, fun hT => absurd trivial hT⟩
    simp [through, hslash]
  split
  · exact passes_escape 'x' (inert_hexDigits _ _) (by decide)
  split
  · exact passes_escape 'u' (inert_hexDigits _ _) (by decide)
  · exact passes_escape 'U' (inert_hexDigits _ _) (by decide)

theorem passes_escapePoint {quote : Char} (hq : quote = '\'' ∨ quote = '"') (p : Point) :
    Passes (¬ (quote = '\'' ∧ p.toChar = '\'')) (escapePoint quote p) := by
  cases p with
  | char c => exact passes_escapeShown hq c
  | half n =>
    have hne : Point.toChar (.half n) ≠ '\'' := by simp [Point.toChar]
    exact (passes_escape 'u' (inert_hexDigits _ _) (by decide)).congr
      (iff_of_true trivial fun h => hne h.2)

/-- The text has quotes of both kinds. -/
def HasBothQuotes (s : Points) : Prop := '\'' ∈ s.toList ∧ '"' ∈ s.toList

theorem quoteFor_eq_single_iff (cs : List Char) :
    quoteFor cs = '\'' ↔ ('\'' ∈ cs → '"' ∈ cs) := by
  rw [quoteFor]
  by_cases hs : '\'' ∈ cs <;> by_cases hd : '"' ∈ cs <;> simp [hs, hd]

/-- A quoted text stays within the literal unless it has quotes of both kinds. -/
theorem passes_quoted (s : Points) : Passes (¬ HasBothQuotes s) (quoted s).toList := by
  have hquote : quoteFor s.toList = '\'' ∨ quoteFor s.toList = '"' := by
    rw [quoteFor]
    split
    · exact .inr rfl
    · exact .inl rfl
  have hmark : Passes True [quoteFor s.toList] := by
    refine ⟨fun _ => ?_, fun hT => absurd trivial hT⟩
    obtain h | h := hquote <;> rw [h] <;> decide
  have hbody := Passes.flatMap fun p (_ : p ∈ s) => passes_escapePoint hquote p
  have hlist : (quoted s).toList = [quoteFor s.toList] ++
      s.flatMap (escapePoint (quoteFor s.toList)) ++ [quoteFor s.toList] := by
    rw [quoted, String.toList_ofList]
    rfl
  rw [hlist]
  refine ((hmark.append hbody).append hmark).congr ?_
  rw [HasBothQuotes, quoteFor_eq_single_iff]
  constructor
  · rintro ⟨⟨-, h⟩, -⟩ ⟨hs, hd⟩
    obtain ⟨p, hp, hq⟩ := List.mem_map.1 hs
    exact h p hp ⟨fun _ => hd, hq⟩
  · intro h
    refine ⟨⟨trivial, ?_⟩, trivial⟩
    rintro p hp ⟨himp, hq⟩
    have hs : '\'' ∈ s.toList := hq ▸ List.mem_map_of_mem hp
    exact h ⟨hs, himp hs⟩

end Text

/-! ## Numbers -/

open Text

theorem inert_toDigits (n : Nat) : ∀ c ∈ Nat.toDigits 10 n, Inert c := fun _ h =>
  inert_of_isDigit (Nat.isDigit_of_mem_toDigits (by decide) (by decide) h)

theorem inert_toString_int (i : Int) : ∀ c ∈ (toString i).toList, Inert c := by
  have hminus : Inert '-' := by decide
  cases i with
  | ofNat n =>
    have hn : (toString (Int.ofNat n)).toList = Nat.toDigits 10 n := by
      have h : toString (Int.ofNat n) = n.repr := rfl
      rw [h, Nat.toList_repr]
    rw [hn]
    exact inert_toDigits n
  | negSucc n =>
    have hn : (toString (Int.negSucc n)).toList = '-' :: Nat.toDigits 10 (n + 1) := by
      have h : toString (Int.negSucc n) = "-" ++ (n + 1).repr := rfl
      simp [h]
    rw [hn]
    exact List.forall_mem_cons.2 ⟨hminus, inert_toDigits _⟩

namespace Binary64

theorem inert_write (l : Layout) (k : Nat) (p : Int) : ∀ c ∈ l.write k p, Inert c := by
  have hdigits := inert_toDigits k
  have hmarks : Inert '.' ∧ Inert '0' ∧ Inert 'e' ∧ Inert '-' ∧ Inert '+' := by decide
  obtain ⟨hpoint, hzero, he, hminus, hplus⟩ := hmarks
  have hnil : ∀ c ∈ ([] : List Char), Inert c := nofun
  have hzeros : ∀ n, ∀ c ∈ List.replicate n '0', Inert c := fun n c hc =>
    List.eq_of_mem_replicate hc ▸ hzero
  have htake : ∀ n, ∀ c ∈ (Nat.toDigits 10 k).take n, Inert c :=
    fun n c hc => hdigits c (List.mem_of_mem_take hc)
  have hdrop : ∀ n, ∀ c ∈ (Nat.toDigits 10 k).drop n, Inert c :=
    fun n c hc => hdigits c (List.mem_of_mem_drop hc)
  rw [Layout.write]
  split
  · split
    · simp only [List.forall_mem_append, List.forall_mem_cons]
      exact ⟨⟨hdigits, hzeros _⟩, hpoint, hzero, hnil⟩
    split
    · simp only [List.forall_mem_append, List.forall_mem_cons]
      exact ⟨htake _, hpoint, hdrop _⟩
    · simp only [List.forall_mem_append, List.forall_mem_cons]
      exact ⟨⟨hzero, hpoint, hzeros _⟩, hdigits⟩
  · simp only [List.forall_mem_append, List.forall_mem_cons, padZeros]
    refine ⟨?_, he, ?_, hzeros _, inert_toDigits _⟩
    · split
      · exact hdigits
      · simp only [List.forall_mem_append, List.forall_mem_cons]
        exact ⟨htake _, hpoint, hdrop _⟩
    · split
      · exact hminus
      · exact hplus

theorem inert_toText (x : Binary64) : ∀ c ∈ x.toText.toList, Inert c := by
  rw [toText]
  cases x.meaning with
  | nan => exact inert_of_all (by decide)
  | infinite negative => cases negative <;> exact inert_of_all (by decide)
  | finite negative m q =>
    have hminus : Inert '-' := by decide
    have hzero : ∀ c ∈ ['0', '.', '0'], Inert c := inert_of_all (by decide)
    dsimp only
    rw [String.toList_ofList]
    split
    · split
      · exact List.forall_mem_cons.2 ⟨hminus, hzero⟩
      · exact List.forall_mem_cons.2 ⟨hminus, inert_write _ _ _⟩
    · split
      · exact hzero
      · exact inert_write _ _ _

end Binary64

/-! ## Values -/

namespace Json

/-- The text stands somewhere within the value: as a text of its own, or as the name of a member. -/
inductive Contains (s : Points) : Json → Prop
  | text : Contains s (.str s)
  | item {items : List Json} {j : Json} (hj : j ∈ items) (h : Contains s j) :
      Contains s (.arr items)
  | name {members : List (Points × Json)} {j : Json} (hm : (s, j) ∈ members) :
      Contains s (.obj members)
  | member {members : List (Points × Json)} {k : Points} {j : Json} (hm : (k, j) ∈ members)
      (h : Contains s j) : Contains s (.obj members)

/-- No text within the value has quotes of both kinds. -/
def OneQuote (j : Json) : Prop := ∀ s, Contains s j → ¬ HasBothQuotes s

theorem oneQuote_str_iff (s : Points) : OneQuote (.str s) ↔ ¬ HasBothQuotes s := by
  constructor
  · intro h
    exact h s .text
  · intro h s' hs'
    cases hs'
    exact h

theorem oneQuote_arr_iff (items : List Json) :
    OneQuote (.arr items) ↔ ∀ j ∈ items, OneQuote j := by
  constructor
  · intro h j hj s hs
    exact h s (.item hj hs)
  · intro h s hs
    cases hs with
    | item hj hs => exact h _ hj s hs

theorem oneQuote_obj_iff (members : List (Points × Json)) :
    OneQuote (.obj members) ↔ ∀ m ∈ members, ¬ HasBothQuotes m.1 ∧ OneQuote m.2 := by
  constructor
  · intro h m hm
    exact ⟨h m.1 (.name hm), fun s hs => h s (.member hm hs)⟩
  · intro h s hs
    cases hs with
    | name hm => exact (h _ hm).1
    | member hm hs => exact (h _ hm).2 s hs

theorem shownItems_eq (items : List Json) : shownItems items = items.map shown := by
  induction items with
  | nil => rfl
  | cons j items ih => rw [shownItems, ih, List.map_cons]

theorem shownMembers_eq (members : List (Points × Json)) :
    shownMembers members = members.map fun m => quoted m.1 ++ ": " ++ shown m.2 := by
  induction members with
  | nil => rfl
  | cons m members ih =>
    obtain ⟨k, j⟩ := m
    rw [shownMembers, ih, List.map_cons]

/-- The shown text of a value stays within its literal exactly if no text in the value has quotes of
both kinds. -/
theorem passes_shown (j : Json) : Passes (OneQuote j) (shown j).toList := by
  have hscalar : ∀ {j : Json} {cs : List Char}, (∀ s, ¬ Contains s j) → (∀ c ∈ cs, Inert c) →
      Passes (OneQuote j) cs := fun hj hcs =>
    (Passes.of_inert hcs).congr (iff_of_true trivial fun s hs => absurd hs (hj s))
  match j with
  | .null => exact hscalar nofun (inert_of_all (by decide))
  | .bool b => exact hscalar nofun (by cases b <;> exact inert_of_all (by decide))
  | .int i => exact hscalar nofun (inert_toString_int i)
  | .float x => exact hscalar nofun (Binary64.inert_toText x)
  | .str s => exact (passes_quoted s).congr (oneQuote_str_iff s).symm
  | .arr items =>
    have hitems := Passes.intercalate fun j (_ : j ∈ items) => passes_shown j
    rw [shown, shownItems_eq, String.toList_append, String.toList_append]
    exact (hitems.enclosed (inert_of_all (by decide)) (inert_of_all (by decide))).congr
      (oneQuote_arr_iff items).symm
  | .obj members =>
    have hmembers := Passes.intercalate (f := fun m : Points × Json =>
        quoted m.1 ++ ": " ++ shown m.2) (R := fun m => ¬ HasBothQuotes m.1 ∧ OneQuote m.2)
        (l := members) fun m (_ : m ∈ members) => by
      have hcolon : ∀ c ∈ ": ".toList, Inert c := inert_of_all (by decide)
      rw [String.toList_append, String.toList_append]
      exact (((passes_quoted m.1).append (.of_inert hcolon)).append (passes_shown m.2)).congr
        (by simp)
    rw [shown, shownMembers_eq, String.toList_append, String.toList_append]
    exact (hmembers.enclosed (inert_of_all (by decide)) (inert_of_all (by decide))).congr
      (oneQuote_obj_iff members).symm
termination_by sizeOf j
decreasing_by
  · have hlt := List.sizeOf_lt_of_mem ‹j ∈ items›
    simp only [arr.sizeOf_spec]
    omega
  · have hlt := List.sizeOf_lt_of_mem ‹m ∈ members›
    obtain ⟨k, j⟩ := m
    simp only [obj.sizeOf_spec, Prod.mk.sizeOf_spec] at hlt ⊢
    omega

end Json
end RouteCompiler
