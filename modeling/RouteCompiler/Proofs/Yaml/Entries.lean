import RouteCompiler.Settings.Environment

/-!
Looking up text keys in the entries of a mapping, and what writing entries over others changes
there. Entries of one text key count once: with distinct keys, laying a mapping over another is
told by what the two hold at each key.
-/

namespace RouteCompiler.Yaml.Value

variable {a v w : Value} {s : Points} {k k' : String} {bs es : List (Value × Value)}

theorem sameKey_text_right : sameKey a (.text s) = true ↔ a = .text s := by
  cases a with
  | float x =>
    simp only [sameKey, asInt?]
    cases x.toInt? <;> simp
  | _ => simp [sameKey, asInt?]

theorem sameKey_text_left : sameKey (.text s) a = true ↔ a = .text s := by
  cases a with
  | float x =>
    simp only [sameKey, asInt?]
    cases x.toInt? <;> simp
  | text t =>
    simp only [sameKey, asInt?, beq_iff_eq, Value.text.injEq]
    exact eq_comm
  | _ => simp [sameKey, asInt?]

/-! ## Lookup -/

theorem entry?_cons_of_eq : entry? k ((.text k, v) :: es) = some v := by
  rw [Value.entry?, if_pos rfl]

theorem entry?_cons_of_ne (h : a ≠ .text k) : entry? k ((a, v) :: es) = entry? k es := by
  cases a with
  | text s => exact if_neg fun e => h (congrArg Value.text e)
  | _ => rfl

theorem entry?_append : entry? k (bs ++ es) = (Value.entry? k bs).or (Value.entry? k es) := by
  induction bs with
  | nil => rfl
  | cons e bs ih =>
    obtain ⟨a, v⟩ := e
    by_cases hk : a = .text k
    · subst hk
      rw [List.cons_append, entry?_cons_of_eq, entry?_cons_of_eq]
      rfl
    · rw [List.cons_append, entry?_cons_of_ne hk, entry?_cons_of_ne hk, ih]

theorem entry?_middle_of_ne (h : a ≠ .text k) :
    entry? k (bs ++ (a, v) :: es) = entry? k (bs ++ es) := by
  rw [entry?_append, entry?_append, entry?_cons_of_ne h]

theorem entry?_middle_of_none (h : entry? k bs = none) :
    entry? k (bs ++ (.text k, v) :: es) = some v := by
  rw [entry?_append, h, entry?_cons_of_eq]
  rfl

theorem entry?_putEntry_of_eq : entry? k (putEntry (.text k) v es) = some v := by
  induction es with
  | nil => exact entry?_cons_of_eq
  | cons e es ih =>
    obtain ⟨a, w⟩ := e
    rw [putEntry]
    split
    next h =>
      rw [sameKey_text_right.1 h]
      exact entry?_cons_of_eq
    next h =>
      rw [entry?_cons_of_ne fun e => h (sameKey_text_right.2 e), ih]

theorem entry?_putEntry_of_ne (h : a ≠ .text k) : entry? k (putEntry a v es) = entry? k es := by
  induction es with
  | nil => exact entry?_cons_of_ne h
  | cons e es ih =>
    obtain ⟨b, w⟩ := e
    rw [putEntry]
    split
    next hs =>
      have hb : b ≠ .text k := by
        rintro rfl
        exact h (sameKey_text_left.1 hs)
      rw [entry?_cons_of_ne hb, entry?_cons_of_ne hb]
    next =>
      by_cases hb : b = .text k
      · subst hb
        rw [entry?_cons_of_eq, entry?_cons_of_eq]
      · rw [entry?_cons_of_ne hb, entry?_cons_of_ne hb, ih]

theorem find?_sameKey_text :
    (bs.find? fun b => sameKey b.1 (.text k)).map Prod.snd = entry? k bs := by
  induction bs with
  | nil => rfl
  | cons b bs ih =>
    obtain ⟨a, w⟩ := b
    rw [List.find?_cons]
    by_cases ha : a = .text k
    · subst ha
      rw [entry?_cons_of_eq, sameKey_text_right.2 rfl]
      rfl
    · rw [entry?_cons_of_ne ha, ← ih, Bool.eq_false_iff.2 fun h => ha (sameKey_text_right.1 h)]

/-! ## Text keys -/

/-- The key as text of characters, if it is one. -/
def textKey? (e : Value × Value) : Option String :=
  match e.1 with
  | .text k => k.string?
  | _ => none

def textKeys (es : List (Value × Value)) : List String := es.filterMap textKey?

/-- No text key comes twice. -/
def Distinct (es : List (Value × Value)) : Prop := (textKeys es).Nodup

theorem textKey?_eq_some_iff : textKey? (a, v) = some k ↔ a = .text k := by
  cases a with
  | text s => simp [textKey?, Points.string?_eq_some_iff]
  | _ => simp [textKey?]

@[simp] theorem textKey?_text : textKey? (.text k, v) = some k := textKey?_eq_some_iff.2 rfl

theorem textKey?_of_ne (h : ∀ k : String, a ≠ .text k) : textKey? (a, v) = none := by
  cases hk : textKey? (a, v) with
  | none => rfl
  | some k => exact absurd (textKey?_eq_some_iff.1 hk) (h k)

theorem textKeys_cons_text : textKeys ((.text k, v) :: es) = k :: textKeys es := by
  simp [textKeys]

theorem textKeys_cons_of_ne (h : ∀ k : String, a ≠ .text k) :
    textKeys ((a, v) :: es) = textKeys es := by
  simp [textKeys, textKey?_of_ne h]

theorem mem_textKeys : k ∈ textKeys es ↔ ∃ v, (.text k, v) ∈ es := by
  rw [textKeys, List.mem_filterMap]
  constructor
  · rintro ⟨⟨a, v⟩, he, hk⟩
    obtain rfl := textKey?_eq_some_iff.1 hk
    exact ⟨v, he⟩
  · rintro ⟨v, he⟩
    exact ⟨_, he, textKey?_text⟩

theorem mem_textKeys_cons (e : Value × Value) (h : k ∈ textKeys es) : k ∈ textKeys (e :: es) := by
  obtain ⟨v, hv⟩ := mem_textKeys.1 h
  exact mem_textKeys.2 ⟨v, List.mem_cons_of_mem e hv⟩

theorem entry?_eq_none_iff : entry? k es = none ↔ k ∉ textKeys es := by
  induction es with
  | nil => simp [Value.entry?, textKeys]
  | cons e es ih =>
    obtain ⟨a, v⟩ := e
    by_cases ha : a = .text k
    · subst ha
      simp [entry?_cons_of_eq, textKeys_cons_text]
    · rw [entry?_cons_of_ne ha, ih, mem_textKeys, mem_textKeys]
      simp [Ne.symm ha]

theorem mem_of_entry (h : entry? k es = some v) : (.text k, v) ∈ es := by
  induction es with
  | nil => cases h
  | cons e es ih =>
    obtain ⟨a, w⟩ := e
    by_cases ha : a = .text k
    · subst ha
      rw [entry?_cons_of_eq, Option.some.injEq] at h
      rw [h]
      exact List.mem_cons_self
    · rw [entry?_cons_of_ne ha] at h
      exact List.mem_cons_of_mem _ (ih h)

theorem textKeys_putEntry_text : textKeys (putEntry (.text k) v es) =
    if k ∈ textKeys es then textKeys es else textKeys es ++ [k] := by
  induction es with
  | nil => exact textKeys_cons_text
  | cons e es ih =>
    obtain ⟨a, w⟩ := e
    rw [putEntry]
    split
    next h =>
      rw [sameKey_text_right.1 h]
      simp [textKeys_cons_text]
    next h =>
      by_cases ha : ∃ j : String, a = .text j
      · obtain ⟨j, rfl⟩ := ha
        have hj : k ≠ j := fun e => h (sameKey_text_right.2 (e ▸ rfl))
        rw [textKeys_cons_text, textKeys_cons_text, ih]
        simp only [List.mem_cons, hj, false_or]
        split <;> rfl
      · have hne : ∀ j : String, a ≠ .text j := fun j e => ha ⟨j, e⟩
        rw [textKeys_cons_of_ne hne, textKeys_cons_of_ne hne, ih]

theorem textKeys_putEntry_of_ne (h : ∀ k : String, a ≠ .text k) :
    textKeys (putEntry a v es) = textKeys es := by
  induction es with
  | nil => exact textKeys_cons_of_ne h
  | cons e es ih =>
    obtain ⟨b, w⟩ := e
    rw [putEntry]
    split
    next hs =>
      have hb : ∀ k : String, b ≠ .text k := by
        rintro k rfl
        exact h k (sameKey_text_left.1 hs)
      rw [textKeys_cons_of_ne hb, textKeys_cons_of_ne hb]
    next =>
      have hcons : ∀ xs, textKeys ((b, w) :: xs) = (textKey? (b, w)).toList ++ textKeys xs :=
        fun xs => by cases hk : textKey? (b, w) <;> simp [textKeys, hk]
      rw [hcons, hcons, ih]

theorem mem_textKeys_putEntry (h : k ∈ textKeys (putEntry a v es)) :
    k ∈ textKeys es ∨ a = .text k := by
  by_cases ha : ∃ k : String, a = .text k
  · obtain ⟨j, rfl⟩ := ha
    rw [textKeys_putEntry_text] at h
    split at h
    · exact .inl h
    · refine (List.mem_append.1 h).imp_right fun hj => ?_
      rw [List.mem_singleton.1 hj]
  · rw [textKeys_putEntry_of_ne fun j e => ha ⟨j, e⟩] at h
    exact .inl h

theorem distinct_putEntry (h : Distinct es) : Distinct (putEntry a v es) := by
  unfold Distinct at h ⊢
  by_cases ha : ∃ k : String, a = .text k
  · obtain ⟨k, rfl⟩ := ha
    rw [textKeys_putEntry_text]
    split
    · exact h
    next hk =>
      refine List.nodup_append.2 ⟨h, by simp, fun s hs s' hs' e => hk ?_⟩
      rwa [← List.mem_singleton.1 hs', ← e]
  · rw [textKeys_putEntry_of_ne fun k e => ha ⟨k, e⟩]
    exact h

theorem distinct_nil : Distinct [] := List.nodup_nil

theorem Distinct.tail {e : Value × Value} (h : Distinct (e :: es)) : Distinct es :=
  h.sublist ((List.sublist_cons_self e es).filterMap textKey?)

theorem Distinct.not_mem (h : Distinct ((.text k, v) :: es)) : k ∉ textKeys es := by
  rw [Distinct, textKeys_cons_text] at h
  exact (List.nodup_cons.1 h).1

theorem distinct_overlayEntries (h : Distinct bs) : Distinct (overlayEntries bs es) := by
  induction es generalizing bs with
  | nil => exact h
  | cons e es ih => exact ih (distinct_putEntry h)

theorem distinct_distinctEntries : Distinct (distinctEntries es) := by
  have hfold : ∀ acc, Distinct acc →
      Distinct (es.foldl (fun acc e => putEntry e.1 e.2 acc) acc) := by
    induction es with
    | nil => exact fun _ h => h
    | cons e es ih => exact fun _ h => ih _ (distinct_putEntry h)
  exact hfold [] distinct_nil

/-! ## Writing mappings over others -/

/-- A value written over what is there already. -/
def overlaid (base : Option Value) (v : Value) : Value :=
  match base with
  | some b => overlay b v
  | none => v

theorem overlay_of_ne_map (h : ∀ es, v ≠ .map es) (b : Value) : overlay b v = v := by
  cases v with
  | map es => exact absurd rfl (h es)
  | _ => rfl

theorem overlaid_of_ne_map (h : ∀ es, v ≠ .map es) (b : Option Value) : overlaid b v = v := by
  cases b with
  | none => rfl
  | some b => exact overlay_of_ne_map h b

theorem overlayEntries_cons : overlayEntries bs ((.text k, v) :: es) =
    overlayEntries (putEntry (.text k) (overlaid (Value.entry? k bs) v) bs) es := by
  rw [overlayEntries, ← find?_sameKey_text]
  cases bs.find? fun b => sameKey b.1 (.text k) <;> rfl

/-- With distinct keys above, each key holds what is above written over what is below. -/
theorem entry?_overlayEntries (h : Distinct es) : entry? k (overlayEntries bs es) =
    match entry? k es with
    | some v => some (overlaid (Value.entry? k bs) v)
    | none => entry? k bs := by
  induction es generalizing bs with
  | nil => rfl
  | cons e es ih =>
    obtain ⟨a, v⟩ := e
    have hes := h.tail
    by_cases ha : a = .text k
    · subst ha
      have hk : entry? k es = none := entry?_eq_none_iff.2 h.not_mem
      rw [overlayEntries_cons, ih hes, hk, entry?_cons_of_eq, entry?_putEntry_of_eq]
    · rw [overlayEntries, ih hes, entry?_cons_of_ne ha, entry?_putEntry_of_ne ha]

theorem textKeys_overlayEntries (h : Distinct es) : textKeys (overlayEntries bs es) =
    textKeys bs ++ (textKeys es).filter fun k => k ∉ textKeys bs := by
  induction es generalizing bs with
  | nil => exact (List.append_nil _).symm
  | cons e es ih =>
    obtain ⟨a, v⟩ := e
    rw [overlayEntries, ih h.tail]
    by_cases ha : ∃ k : String, a = .text k
    · obtain ⟨k, rfl⟩ := ha
      rw [textKeys_putEntry_text, textKeys_cons_text, List.filter_cons]
      by_cases hk : k ∈ textKeys bs
      · simp [hk]
      · have hne : ∀ j ∈ textKeys es, j ≠ k := by
          rintro j hj rfl
          exact h.not_mem hj
        have hfilter : (textKeys es).filter (fun j => j ∉ textKeys bs ++ [k]) =
            (textKeys es).filter fun j => j ∉ textKeys bs :=
          List.filter_congr fun j hj => by simp [hne j hj]
        rw [if_neg hk, hfilter]
        simp [hk]
    · have hne : ∀ k : String, a ≠ .text k := fun k e => ha ⟨k, e⟩
      rw [textKeys_putEntry_of_ne hne, textKeys_cons_of_ne hne]

/-- Entries written over others, and under them once more. -/
theorem entry?_overlayEntries_twice (hbs : Distinct bs) (hes : Distinct es) :
    entry? k (overlayEntries es (overlayEntries bs es)) =
      match entry? k es with
      | some v => some (overlay v (overlaid (Value.entry? k bs) v))
      | none => entry? k bs := by
  rw [entry?_overlayEntries (distinct_overlayEntries hbs), entry?_overlayEntries hes]
  cases entry? k es with
  | some v => rfl
  | none => cases entry? k bs <;> rfl

/-! ## The last entry of several -/

/-- The value of the last entry whose key is such a text. -/
def lastWhere (p : String → Bool) : List (Value × Value) → Option Value
  | [] => none
  | e :: r => (lastWhere p r).or (if (textKey? e).any p then some e.2 else none)

variable {p : String → Bool}

theorem any_textKey?_of_not (h : ∀ k : String, a = .text k → p k = false) :
    (textKey? (a, v)).any p = false := by
  cases hk : textKey? (a, v) with
  | none => rfl
  | some k => exact h k (textKey?_eq_some_iff.1 hk)

theorem entry?_distinctEntries : entry? k (distinctEntries es) = lastWhere (· == k) es := by
  have hfold : ∀ acc, entry? k (es.foldl (fun acc e => putEntry e.1 e.2 acc) acc) =
      (lastWhere (· == k) es).or (Value.entry? k acc) := by
    induction es with
    | nil => exact fun _ => rfl
    | cons e es ih =>
      intro acc
      obtain ⟨a, v⟩ := e
      rw [List.foldl_cons, ih, lastWhere, Option.or_assoc]
      by_cases ha : a = .text k
      · subst ha
        rw [entry?_putEntry_of_eq]
        simp [textKey?]
      · have hnone : ((textKey? (a, v)).any (· == k)) = false := by
          refine any_textKey?_of_not fun j hj => beq_eq_false_iff_ne.2 ?_
          rintro rfl
          exact ha hj
        rw [entry?_putEntry_of_ne ha, hnone]
        rfl
  rw [distinctEntries, hfold]
  exact Option.or_none

theorem lastWhere_eq_none (h : ∀ k ∈ textKeys es, p k = false) : lastWhere p es = none := by
  induction es with
  | nil => rfl
  | cons e es ih =>
    have hes : ∀ k ∈ textKeys es, p k = false := fun k hk => h k (mem_textKeys_cons e hk)
    have he : (textKey? e).any p = false := by
      cases hk : textKey? e with
      | none => rfl
      | some k => exact h k (List.mem_filterMap.2 ⟨e, List.mem_cons_self, hk⟩)
    rw [lastWhere, ih hes, he]
    rfl

theorem lastWhere_putEntry_of_not (h : ∀ k : String, a = .text k → p k = false) :
    lastWhere p (putEntry a v es) = lastWhere p es := by
  have ha (v : Value) : (textKey? (a, v)).any p = false := any_textKey?_of_not h
  induction es with
  | nil => rw [putEntry, lastWhere, lastWhere, ha]; rfl
  | cons e es ih =>
    obtain ⟨b, w⟩ := e
    rw [putEntry]
    split
    next hs =>
      have hb (v : Value) : (textKey? (b, v)).any p = false := by
        refine any_textKey?_of_not fun k hk => h k ?_
        subst hk
        exact sameKey_text_left.1 hs
      rw [lastWhere, lastWhere, hb, hb]
      rfl
    next => rw [lastWhere, lastWhere, ih]

/-- If the key is there, it is the last such text. -/
def IsLast (p : String → Bool) (k : String) (es : List (Value × Value)) : Prop :=
  k ∈ textKeys es → ((textKeys es).filter p).getLast? = some k

instance : Decidable (IsLast p k es) :=
  inferInstanceAs (Decidable (k ∈ textKeys es → ((textKeys es).filter p).getLast? = some k))

theorem IsLast.tail {e : Value × Value} (h : IsLast p k (e :: es)) (hp : p k = true) :
    IsLast p k es := by
  intro hk
  have hlast := h (mem_textKeys_cons e hk)
  obtain ⟨l, hl⟩ : ∃ l, (textKeys (e :: es)).filter p = l ++ (textKeys es).filter p := by
    cases he : textKey? e with
    | none => exact ⟨[], by simp [textKeys, he]⟩
    | some j => exact ⟨[j].filter p, by simp [textKeys, he, ← List.filter_append]⟩
  rw [hl, List.getLast?_append] at hlast
  cases hes : ((textKeys es).filter p).getLast? with
  | none =>
    have hnil := List.getLast?_eq_none_iff.1 hes
    exact absurd hp (List.filter_eq_nil_iff.1 hnil k hk)
  | some j =>
    rw [hes] at hlast
    exact hlast

/-- Written where it is the last such text, or behind all others, a value is the last. -/
theorem lastWhere_putEntry (hd : Distinct es) (hp : p k = true) (h : IsLast p k es) :
    lastWhere p (putEntry (.text k) v es) = some v := by
  induction es with
  | nil => simp [putEntry, lastWhere, textKey?, hp]
  | cons e es ih =>
    obtain ⟨b, w⟩ := e
    rw [putEntry]
    split
    next hs =>
      obtain rfl := sameKey_text_right.1 hs
      -- another such text behind it would be the last one
      have hfilter : (textKeys es).filter p = [] := by
        have hlast := h (by rw [textKeys_cons_text]; exact List.mem_cons_self)
        rw [textKeys_cons_text, List.filter_cons_of_pos hp, List.getLast?_cons] at hlast
        cases hes : ((textKeys es).filter p).getLast? with
        | none => exact List.getLast?_eq_none_iff.1 hes
        | some j =>
          rw [hes] at hlast
          obtain rfl : j = k := Option.some.inj hlast
          exact absurd (List.mem_filter.1 (List.mem_of_getLast? hes)).1 hd.not_mem
      have hnone : lastWhere p es = none :=
        lastWhere_eq_none fun j hj => by simpa using List.filter_eq_nil_iff.1 hfilter j hj
      rw [lastWhere, hnone]
      simp [textKey?, hp]
    next hs =>
      rw [lastWhere, ih hd.tail (h.tail hp)]
      rfl

theorem lastWhere_putEntry_or :
    lastWhere p (putEntry a v es) = lastWhere p es ∨ lastWhere p (putEntry a v es) = some v := by
  induction es with
  | nil =>
    simp only [putEntry, lastWhere, Option.none_or]
    split
    · exact .inr rfl
    · exact .inl rfl
  | cons e es ih =>
    obtain ⟨b, w⟩ := e
    rw [putEntry]
    split
    · rw [lastWhere, lastWhere]
      cases lastWhere p es with
      | some x => exact .inl rfl
      | none =>
        have hkey : textKey? (b, v) = textKey? (b, w) := rfl
        rw [Option.none_or, Option.none_or, hkey]
        split
        · exact .inr rfl
        · exact .inl rfl
    · rw [lastWhere, lastWhere]
      obtain h | h := ih
      · exact .inl (by rw [h])
      · exact .inr (by rw [h]; rfl)

/-- With one entry at the only key that is such a text, no other entry is at one. -/
theorem eq_false_of_only (hd : Distinct ((.text k, v) :: es))
    (h : ∀ j ∈ textKeys ((.text k, v) :: es), p j = true → j = k) :
    ∀ j ∈ textKeys es, p j = false := by
  intro j hj
  cases hpj : p j with
  | false => rfl
  | true =>
    obtain rfl := h j (mem_textKeys_cons _ hj) hpj
    exact absurd hj hd.not_mem

theorem eq_false_of_ne (ha : a ≠ .text k)
    (h : ∀ j ∈ textKeys ((a, v) :: es), p j = true → j = k) :
    ∀ j : String, a = .text j → p j = false := by
  rintro j rfl
  cases hpj : p j with
  | false => rfl
  | true =>
    obtain rfl := h j (mem_textKeys.2 ⟨v, List.mem_cons_self⟩) hpj
    exact absurd rfl ha

theorem lastWhere_of_only (hd : Distinct es) (hp : p k = true)
    (h : ∀ j ∈ textKeys es, p j = true → j = k) : lastWhere p es = entry? k es := by
  induction es with
  | nil => rfl
  | cons e es ih =>
    obtain ⟨a, v⟩ := e
    by_cases ha : a = .text k
    · subst ha
      rw [lastWhere, lastWhere_eq_none (eq_false_of_only hd h), entry?_cons_of_eq]
      simp [textKey?, hp]
    · have hnot : (textKey? (a, v)).any p = false := any_textKey?_of_not (eq_false_of_ne ha h)
      rw [lastWhere, ih hd.tail fun j hj => h j (mem_textKeys_cons _ hj), hnot,
        entry?_cons_of_ne ha]
      exact Option.or_none

theorem lastWhere_overlayEntries_of_not (h : ∀ k ∈ textKeys es, p k = false) :
    lastWhere p (overlayEntries bs es) = lastWhere p bs := by
  induction es generalizing bs with
  | nil => rfl
  | cons e es ih =>
    obtain ⟨a, v⟩ := e
    rw [overlayEntries, ih fun k hk => h k (mem_textKeys_cons _ hk)]
    refine lastWhere_putEntry_of_not fun k hk => h k ?_
    exact mem_textKeys.2 ⟨v, hk ▸ List.mem_cons_self⟩

/-- If at most one key above is such a text, then what is written there may be the last. -/
theorem lastWhere_overlayEntries_or (bs : List (Value × Value)) (hes : Distinct es)
    (habove : ∀ j ∈ textKeys es, p j = true → j = k) :
    lastWhere p (overlayEntries bs es) = lastWhere p bs ∨
      ∃ v, entry? k es = some v ∧
        lastWhere p (overlayEntries bs es) = some (overlaid (Value.entry? k bs) v) := by
  induction es generalizing bs with
  | nil => exact .inl rfl
  | cons e es ih =>
    obtain ⟨a, v⟩ := e
    by_cases ha : a = .text k
    · subst ha
      rw [overlayEntries_cons, lastWhere_overlayEntries_of_not (eq_false_of_only hes habove),
        entry?_cons_of_eq]
      exact lastWhere_putEntry_or.imp_right fun h => ⟨v, rfl, h⟩
    · obtain ⟨w, hw⟩ : ∃ w, overlayEntries bs ((a, v) :: es) =
          overlayEntries (putEntry a w bs) es := ⟨_, by rw [overlayEntries]⟩
      have hrest := ih (putEntry a w bs) hes.tail fun j hj => habove j (mem_textKeys_cons _ hj)
      rw [lastWhere_putEntry_of_not (eq_false_of_ne ha habove), entry?_putEntry_of_ne ha] at hrest
      rw [hw, entry?_cons_of_ne ha]
      exact hrest

theorem IsLast.putEntry (h : IsLast p k es) (ha : ∀ j : String, a = .text j → p j = false)
    (hk : a ≠ .text k) : IsLast p k (putEntry a v es) := by
  have hfilter : (textKeys (Value.putEntry a v es)).filter p = (textKeys es).filter p := by
    by_cases htext : ∃ j : String, a = .text j
    · obtain ⟨j, rfl⟩ := htext
      rw [textKeys_putEntry_text]
      split
      · rfl
      · simp [ha j rfl]
    · rw [textKeys_putEntry_of_ne fun j e => htext ⟨j, e⟩]
  intro hmem
  rw [hfilter]
  exact h ((mem_textKeys_putEntry hmem).resolve_right hk)

/-- If it is the last below too, or not there at all, then it is the last. -/
theorem lastWhere_overlayEntries (hbs : Distinct bs) (hes : Distinct es) (hp : p k = true)
    (habove : ∀ j ∈ textKeys es, p j = true → j = k) (hbelow : IsLast p k bs) :
    lastWhere p (overlayEntries bs es) =
      match entry? k es with
      | some v => some (overlaid (Value.entry? k bs) v)
      | none => lastWhere p bs := by
  induction es generalizing bs with
  | nil => rfl
  | cons e es ih =>
    obtain ⟨a, v⟩ := e
    by_cases ha : a = .text k
    · subst ha
      rw [overlayEntries_cons, lastWhere_overlayEntries_of_not (eq_false_of_only hes habove),
        entry?_cons_of_eq]
      exact lastWhere_putEntry hbs hp hbelow
    · have hnot := eq_false_of_ne ha habove
      rw [overlayEntries, entry?_cons_of_ne ha, ih (distinct_putEntry hbs) hes.tail
        (fun j hj => habove j (mem_textKeys_cons _ hj)) (hbelow.putEntry hnot ha),
        entry?_putEntry_of_ne ha, lastWhere_putEntry_of_not hnot]

end RouteCompiler.Yaml.Value
