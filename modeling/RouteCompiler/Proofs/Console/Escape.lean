import RouteCompiler.Console.Table

/-!
Escaped text has no tags. A tag with backslashes before it gets one more than twice as many, so it
is read as text, and what was no tag does not become one. A message that is otherwise free of tags
can therefore be shown, whatever text is escaped in it. It need not look as the text does: a
backslash before a bracket that begins no tag is dropped.
-/

namespace RouteCompiler.Console

/-- All pieces are text. -/
def TagFree (cs : List Char) : Prop := ∀ n plain, ∀ p ∈ pieces n plain cs, ∃ t, p = .text t

variable {c : Char} {cs r tail : List Char}

/-! ## Text without tags -/

theorem tagFree_of_step {cs : List Char} (h : ∀ n plain, ∀ p ∈ pieces (n + 1) plain cs,
    ∃ t, p = .text t) : TagFree cs := by
  intro n plain p hp
  cases n with
  | zero => exact ⟨_, List.mem_singleton.1 hp⟩
  | succ n => exact h n plain p hp

theorem tagFree_nil : TagFree [] := tagFree_of_step fun _ _ _ hp => ⟨_, List.mem_singleton.1 hp⟩

theorem escapedTag?_char (hc : c ≠ '\\') (ht : c = '[' → tag? r = none) :
    (if c = '\\' || c = '[' then escapedTag? (c :: r) else none) = none := by
  split
  next h =>
    obtain rfl : c = '[' := by simpa [hc] using h
    simp [escapedTag?, ht rfl]
  next => rfl

theorem TagFree.cons (h : TagFree r) (hc : c ≠ '\\') (ht : c = '[' → tag? r = none) :
    TagFree (c :: r) := by
  refine tagFree_of_step fun n plain p hp => ?_
  rw [pieces, escapedTag?_char hc ht] at hp
  simp only [if_neg hc] at hp
  exact h n _ p hp

theorem forall_plain_of_all {cs : List Char} (h : (cs.all fun c => c != '\\' && c != '[') = true) :
    ∀ c ∈ cs, c ≠ '\\' ∧ c ≠ '[' := by
  simpa using h

theorem TagFree.append {before : List Char} (hr : TagFree r)
    (h : ∀ c ∈ before, c ≠ '\\' ∧ c ≠ '[') : TagFree (before ++ r) := by
  induction before with
  | nil => exact hr
  | cons c before ih =>
    obtain ⟨hslash, hbracket⟩ := h c List.mem_cons_self
    refine (ih fun d hd => h d (List.mem_cons_of_mem c hd)).cons hslash ?_
    exact fun e => absurd e hbracket

/-! ## Backslashes -/

section
variable {slashes rest name : List Char}

theorem exists_slashes (cs : List Char) : ∃ slashes r, (∀ c ∈ slashes, c = '\\') ∧
    r.head? ≠ some '\\' ∧ cs = slashes ++ r := by
  induction cs with
  | nil => exact ⟨[], [], nofun, nofun, rfl⟩
  | cons c cs ih =>
    by_cases hc : c = '\\'
    · obtain ⟨slashes, r, hs, hr, rfl⟩ := ih
      refine ⟨c :: slashes, r, fun d hd => ?_, hr, rfl⟩
      obtain rfl | hd := List.mem_cons.1 hd
      · exact hc
      · exact hs d hd
    · exact ⟨[], c :: cs, nofun, fun h => hc (Option.some.inj h), rfl⟩

theorem takeWhile_slashes (hs : ∀ c ∈ slashes, c = '\\') (hr : r.head? ≠ some '\\') :
    (slashes ++ r).takeWhile (· = '\\') = slashes := by
  rw [List.takeWhile_append_of_pos (by simpa using hs)]
  cases r with
  | nil => simp
  | cons c r => simp_all

theorem dropWhile_slashes (hs : ∀ c ∈ slashes, c = '\\') (hr : r.head? ≠ some '\\') :
    (slashes ++ r).dropWhile (· = '\\') = r := by
  rw [List.dropWhile_append_of_pos (by simpa using hs)]
  cases r with
  | nil => rfl
  | cons c r => simp_all

theorem escapedTag?_eq_some (hs : ∀ c ∈ slashes, c = '\\') (ht : tag? rest = some (name, r)) :
    escapedTag? (slashes ++ '[' :: rest) = some (slashes.length, name, r) := by
  rw [escapedTag?, dropWhile_slashes hs (by simp), takeWhile_slashes hs (by simp)]
  simp [ht]

theorem escapedTag?_eq_none (hs : ∀ c ∈ slashes, c = '\\') (hr : r.head? ≠ some '\\')
    (ht : ∀ r', r = '[' :: r' → tag? r' = none) : escapedTag? (slashes ++ r) = none := by
  rw [escapedTag?, dropWhile_slashes hs hr]
  split
  next r' => simp [ht r' rfl]
  next => rfl

/-- Backslashes with no tag behind them. -/
theorem TagFree.backslashes (h : TagFree r) (hs : ∀ c ∈ slashes, c = '\\')
    (hr : r.head? ≠ some '\\') (ht : ∀ r', r = '[' :: r' → tag? r' = none) :
    TagFree (slashes ++ r) := by
  cases slashes with
  | nil => exact h
  | cons c slashes =>
    have hnone := escapedTag?_eq_none hs hr ht
    obtain rfl := hs c List.mem_cons_self
    have hs' : ∀ c ∈ slashes, c = '\\' := fun c hc => hs c (List.mem_cons_of_mem _ hc)
    refine tagFree_of_step fun n plain p hp => ?_
    rw [List.cons_append] at hnone
    rw [List.cons_append, pieces] at hp
    simp only [hnone, ite_self, if_true, takeWhile_slashes hs' hr, dropWhile_slashes hs' hr] at hp
    exact h n _ p hp

/-- A tag with an odd number of backslashes. -/
theorem TagFree.escapedTag {k : Nat} (h : TagFree r) (ht : tag? rest = some (name, r)) :
    TagFree (List.replicate (2 * k + 1) '\\' ++ '[' :: rest) := by
  have hslashes : ∀ c ∈ List.replicate (2 * k + 1) '\\', c = '\\' :=
    fun c => List.eq_of_mem_replicate
  have hsome := escapedTag?_eq_some hslashes ht
  have hodd : (2 * k + 1) % 2 = 1 := by omega
  refine tagFree_of_step fun n plain p hp => ?_
  rw [List.length_replicate, List.replicate_succ, List.cons_append] at hsome
  rw [List.replicate_succ, List.cons_append, pieces] at hp
  simp only [hsome, decide_true, Bool.true_or, if_true, hodd, List.mem_cons] at hp
  obtain rfl | rfl | rfl | hp := hp
  · exact ⟨_, rfl⟩
  · exact ⟨_, rfl⟩
  · exact ⟨_, rfl⟩
  · exact h n _ p hp

end

/-! ## Tags -/

theorem tagRest_cons_eq_none (hc : c ≠ ']') :
    tagRest (c :: r) = none ↔ c = '[' ∨ tagRest r = none := by
  by_cases hb : c = '['
  · subst hb
    simp [tagRest]
  · have h : tagRest (c :: r) = (tagRest r).map fun p => (c :: p.1, p.2) := by
      rw [tagRest]
      · exact hc
      · exact hb
    simp [h, hb]

theorem tagRest_slashes {slashes : List Char} (hs : ∀ c ∈ slashes, c = '\\') :
    tagRest (slashes ++ r) = none ↔ tagRest r = none := by
  induction slashes with
  | nil => rfl
  | cons c slashes ih =>
    obtain rfl := hs c List.mem_cons_self
    rw [List.cons_append, tagRest_cons_eq_none (by decide),
      ih fun c hc => hs c (List.mem_cons_of_mem _ hc)]
    simp

theorem tag?_cons_eq_none : tag? (c :: r) = none ↔ beginsTag c = false ∨ tagRest r = none := by
  rw [tag?]
  cases beginsTag c <;> simp

/-- A tag ends at its bracket, whatever is behind. -/
theorem tagRest_eq_some {name rest : List Char} (h : tagRest cs = some (name, rest)) :
    cs = name ++ ']' :: rest ∧
      ∀ rest', tagRest (name ++ ']' :: rest') = some (name, rest') := by
  induction cs generalizing name with
  | nil => cases h
  | cons c cs ih =>
    rw [tagRest.eq_def] at h
    split at h
    · cases h
    next r he =>
      cases h
      exact ⟨he, fun _ => rfl⟩
    · cases h
    next c r hclose hopen he =>
      obtain ⟨rfl, rfl⟩ := List.cons.inj he
      obtain ⟨⟨name', rest₁⟩, hp, hn⟩ := Option.map_eq_some_iff.1 h
      cases hn
      obtain ⟨rfl, hrest⟩ := ih hp
      refine ⟨rfl, fun rest' => ?_⟩
      rw [List.cons_append, tagRest, hrest]
      · rfl
      · exact hclose
      · exact hopen

theorem tag?_eq_some {name rest : List Char} (h : tag? cs = some (name, rest)) :
    cs = name ++ ']' :: rest ∧ ∀ rest', tag? (name ++ ']' :: rest') = some (name, rest') := by
  cases cs with
  | nil => cases h
  | cons c cs =>
    rw [tag?] at h
    split at h
    next hc =>
      obtain ⟨⟨name', rest₁⟩, hp, hn⟩ := Option.map_eq_some_iff.1 h
      cases hn
      obtain ⟨rfl, hrest⟩ := tagRest_eq_some hp
      refine ⟨rfl, fun rest' => ?_⟩
      rw [List.cons_append, tag?, if_pos hc, hrest]
      rfl
    next => cases h

/-! ## Escaped text -/

/-- How a text begins: with a tag and its backslashes, with backslashes that stand before none, or
with a character that begins none. -/
inductive Front : List Char → Prop
  | nil : Front []
  | tag {slashes rest name r : List Char} (hs : ∀ c ∈ slashes, c = '\\')
      (ht : tag? rest = some (name, r)) : Front (slashes ++ '[' :: rest)
  | slashes {slashes r : List Char} (hs : ∀ c ∈ slashes, c = '\\') (hr : r.head? ≠ some '\\')
      (ht : ∀ r', r = '[' :: r' → tag? r' = none) : Front ('\\' :: slashes ++ r)
  | char {c : Char} {r : List Char} (hc : c ≠ '\\') (ht : c = '[' → tag? r = none) : Front (c :: r)

theorem front (cs : List Char) : Front cs := by
  obtain ⟨slashes, rest, hs, hr, rfl⟩ := exists_slashes cs
  by_cases h : ∃ r' p, rest = '[' :: r' ∧ tag? r' = some p
  · obtain ⟨r', ⟨name, r''⟩, rfl, ht⟩ := h
    exact .tag hs ht
  have hnone : ∀ r', rest = '[' :: r' → tag? r' = none := fun r' hrest =>
    Option.eq_none_iff_forall_ne_some.2 fun p ht => h ⟨r', p, hrest, ht⟩
  cases slashes with
  | nil =>
    cases rest with
    | nil => exact .nil
    | cons c r => exact .char (fun hc => hr (congrArg some hc)) fun hc => hnone r (by rw [hc])
  | cons d slashes =>
    obtain rfl := hs d List.mem_cons_self
    exact .slashes (fun c hc => hs c (List.mem_cons_of_mem _ hc)) hr hnone

section
variable {slashes rest name : List Char}

theorem escapeTags_tag (hs : ∀ c ∈ slashes, c = '\\') (ht : tag? rest = some (name, r)) (n : Nat) :
    escapeTags (n + 1) (slashes ++ '[' :: rest) =
      List.replicate (2 * slashes.length + 1) '\\' ++ '[' :: (name ++ ']' :: escapeTags n r) := by
  have hsome := escapedTag?_eq_some hs ht
  cases slashes with
  | nil => simp_all [escapeTags]
  | cons c slashes =>
    obtain rfl := hs c List.mem_cons_self
    simp_all [escapeTags]

theorem escapeTags_slashes (hs : ∀ c ∈ slashes, c = '\\') (hr : r.head? ≠ some '\\')
    (ht : ∀ r', r = '[' :: r' → tag? r' = none) (n : Nat) :
    escapeTags (n + 1) ('\\' :: slashes ++ r) = '\\' :: slashes ++ escapeTags n r := by
  have hslashes : ∀ c ∈ '\\' :: slashes, c = '\\' := by simpa using hs
  have hnone := escapedTag?_eq_none hslashes hr ht
  rw [List.cons_append] at hnone ⊢
  rw [escapeTags, hnone]
  simp only [ite_self, if_true, takeWhile_slashes hs hr, dropWhile_slashes hs hr, List.cons_append]

theorem escapeTags_char (hc : c ≠ '\\') (ht : c = '[' → tag? r = none) (n : Nat) :
    escapeTags (n + 1) (c :: r) = c :: escapeTags n r := by
  rw [escapeTags, escapedTag?_char hc ht]
  simp only [if_neg hc]

end

theorem tagRest_append_slashes (ht : ∀ c ∈ tail, c = '\\') (h : tagRest cs = none) :
    tagRest (cs ++ tail) = none := by
  induction cs with
  | nil => simpa using (tagRest_slashes (r := []) ht).2 rfl
  | cons c cs ih =>
    have hc : c ≠ ']' := by
      rintro rfl
      cases h
    rw [List.cons_append, tagRest_cons_eq_none hc]
    exact ((tagRest_cons_eq_none hc).1 h).imp_right ih

/-- What is no tag is none when the text behind it is escaped. -/
theorem tagRest_escapeTags (htail : ∀ c ∈ tail, c = '\\') (n : Nat) (h : tagRest cs = none) :
    tagRest (escapeTags n cs ++ tail) = none := by
  induction n generalizing cs with
  | zero => exact tagRest_append_slashes htail h
  | succ n ih =>
    cases front cs with
    | nil => exact tagRest_append_slashes htail rfl
    | tag hs ht =>
      rw [escapeTags_tag hs ht, List.append_assoc,
        tagRest_slashes fun c => List.eq_of_mem_replicate]
      rfl
    | slashes hs hr ht =>
      rw [List.cons_append, tagRest_cons_eq_none (by decide), tagRest_slashes hs] at h
      rw [escapeTags_slashes hs hr ht, List.cons_append, List.cons_append,
        tagRest_cons_eq_none (by decide), List.append_assoc, tagRest_slashes hs]
      exact h.imp_right ih
    | @char c r hc ht =>
      have hclose : c ≠ ']' := by
        rintro rfl
        cases h
      rw [tagRest_cons_eq_none hclose] at h
      rw [escapeTags_char hc ht, List.cons_append, tagRest_cons_eq_none hclose]
      exact h.imp_right ih

theorem tag?_escapeTags (htail : ∀ c ∈ tail, c = '\\') (n : Nat) (h : tag? cs = none) :
    tag? (escapeTags n cs ++ tail) = none := by
  have hnil : tag? tail = none := by
    cases tail with
    | nil => rfl
    | cons c tail =>
      obtain rfl := htail c List.mem_cons_self
      rfl
  cases n with
  | zero =>
    cases cs with
    | nil => exact hnil
    | cons c cs =>
      rw [tag?_cons_eq_none] at h
      rw [escapeTags, List.cons_append, tag?_cons_eq_none]
      exact h.imp_right (tagRest_append_slashes htail)
  | succ n =>
    cases front cs with
    | nil => exact hnil
    | tag hs ht =>
      rw [escapeTags_tag hs ht]
      rfl
    | slashes hs hr ht =>
      rw [escapeTags_slashes hs hr ht]
      rfl
    | char hc ht =>
      rw [tag?_cons_eq_none] at h
      rw [escapeTags_char hc ht, List.cons_append, tag?_cons_eq_none]
      exact h.imp_right (tagRest_escapeTags htail n)

theorem tagFree_slashes (hs : ∀ c ∈ cs, c = '\\') : TagFree cs := by
  have h := TagFree.backslashes tagFree_nil hs nofun nofun
  rwa [List.append_nil] at h

/-- Escaped text has no tags, with backslashes behind it or not. -/
theorem tagFree_escapeTags (htail : ∀ c ∈ tail, c = '\\') (n : Nat) (h : cs.length < n) :
    TagFree (escapeTags n cs ++ tail) := by
  induction n generalizing cs with
  | zero => exact absurd h (Nat.not_lt_zero _)
  | succ n ih =>
    cases front cs with
    | nil => exact tagFree_slashes htail
    | @tag slashes rest name r hs ht =>
      obtain ⟨rfl, hrest⟩ := tag?_eq_some ht
      have hr : r.length < n := by
        simp only [List.length_append, List.length_cons] at h
        omega
      rw [escapeTags_tag hs ht, List.append_assoc, List.cons_append, List.append_assoc]
      exact (ih hr).escapedTag (hrest _)
    | @slashes slashes r hs hr ht =>
      have hs' : ∀ c ∈ '\\' :: slashes, c = '\\' := by simpa using hs
      rw [escapeTags_slashes hs hr ht, List.append_assoc]
      cases r with
      | nil =>
        refine tagFree_slashes fun c hc => ?_
        have hnil : escapeTags n [] = [] := by cases n <;> rfl
        rw [hnil, List.nil_append] at hc
        exact (List.mem_append.1 hc).elim (hs' c) (htail c)
      | cons d r =>
        have hn : (d :: r).length < n := by
          simp only [List.length_append, List.length_cons] at h ⊢
          omega
        have hd : d ≠ '\\' := fun e => hr (congrArg some e)
        have hd' : d = '[' → tag? r = none := fun e => ht r (by rw [e])
        refine (ih hn).backslashes hs' ?_ fun r' he => ?_
        · cases n with
          | zero => cases hn
          | succ n => simpa [escapeTags_char hd hd'] using hd
        · cases n with
          | zero => cases hn
          | succ n =>
            rw [escapeTags_char hd hd', List.cons_append] at he
            obtain ⟨rfl, rfl⟩ := List.cons.inj he
            exact tag?_escapeTags htail n (hd' rfl)
    | char hc ht =>
      rw [escapeTags_char hc ht]
      exact (ih (Nat.lt_of_succ_lt_succ h)).cons hc fun e => tag?_escapeTags htail n (ht e)

theorem tagFree_escape (s : String) : TagFree (escape s).toList := by
  have hnone : ∀ c ∈ ([] : List Char), c = '\\' := nofun
  have hone : ∀ c ∈ ['\\'], c = '\\' := by simp
  have hplain := tagFree_escapeTags hnone _ (Nat.lt_succ_self s.toList.length)
  have hdoubled := tagFree_escapeTags hone _ (Nat.lt_succ_self s.toList.length)
  rw [List.append_nil] at hplain
  rw [escape, String.toList_ofList]
  split
  · exact hplain
  · exact hdoubled
  · exact hplain

/-! ## Messages -/

theorem exists_plainOf {ps : List Piece} (h : ∀ p ∈ ps, ∃ t, p = .text t) (styles : List String) :
    ∃ cs, plainOf styles ps = .ok cs := by
  induction ps with
  | nil => exact ⟨[], rfl⟩
  | cons p ps ih =>
    obtain ⟨t, rfl⟩ := h p List.mem_cons_self
    obtain ⟨cs, hcs⟩ := ih fun p hp => h p (List.mem_cons_of_mem _ hp)
    rw [plainOf, hcs]
    exact ⟨_, rfl⟩

/-- A message without tags can be shown. -/
theorem exists_message {s : String} (h : TagFree s.toList) : ∃ shown, message s = .ok shown := by
  obtain ⟨cs, hcs⟩ := exists_plainOf (h (s.toList.length + 1) []) []
  obtain ⟨t, ht⟩ : ∃ t, plain s = .ok t := by
    rw [plain, hcs]
    split
    · exact ⟨_, rfl⟩
    · exact ⟨_, rfl⟩
  rw [message, ht]
  exact ⟨_, rfl⟩

end RouteCompiler.Console
