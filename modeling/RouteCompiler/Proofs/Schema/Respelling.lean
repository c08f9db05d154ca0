import Mathlib.Logic.Relation
import RouteCompiler.Proofs.Yaml.Entries
import RouteCompiler.Schema.Reader

/-!
Spellings of one document. The shape of a document tells its texts, lists, maps and records; a
respelling changes how one part is written and not what it says. A reader that admits a shape reads
both spellings alike: it gives the same value, or the same problems at the same locations, where
fields go by their names and keys of maps by their texts.
-/

namespace RouteCompiler.Schema

open Yaml (Value)
open Yaml.Value (entry?_append entry?_middle_of_ne entry?_middle_of_none)

/-! ## Shapes and respellings -/

def Field.Spells (f : Field) (k : String) : Prop := k = f.name ∨ k = f.other

instance (f : Field) (k : String) : Decidable (f.Spells k) :=
  inferInstanceAs (Decidable (_ ∨ _))

inductive Shape
  | text (rule : TextRule)
  | truth
  | list (item : Shape)
  | map (value : Shape)
  | record (fields : List (Field × Shape))

/-- One part of a document, written in another way. -/
inductive Respelling : Shape → Value → Value → Prop
  | number {rule : TextRule} {i : Int} (h : rule.numbers = true) :
      Respelling (.text rule) (.int i) (.text (toString i))
  | truth {rule : TextRule} {b : Bool} (h : rule.truths = true) :
      Respelling (.text rule) (.bool b) (.text (if b then "true" else "false"))
  | item {s : Shape} {v w : Value} (before after : List Value) (h : Respelling s v w) :
      Respelling (.list s) (.seq (before ++ v :: after)) (.seq (before ++ w :: after))
  | key {s : Shape} {i : Int} {v : Value} (before after : Entries)
      (h : Value.entry? (toString i) (before ++ after) = none) :
      Respelling (.map s) (.map (before ++ (.int i, v) :: after))
        (.map (before ++ (.text (toString i), v) :: after))
  | entry {s : Shape} {k v w : Value} (before after : Entries) (h : Respelling s v w) :
      Respelling (.map s) (.map (before ++ (k, v) :: after)) (.map (before ++ (k, w) :: after))
  | name {fields : List (Field × Shape)} {f : Field} {s : Shape} {v : Value}
      (before after : Entries) (hf : (f, s) ∈ fields)
      (h : ∀ k, f.Spells k → Value.entry? k (before ++ after) = none) :
      Respelling (.record fields) (.map (before ++ (.text f.name, v) :: after))
        (.map (before ++ (.text f.other, v) :: after))
  | unknown {fields : List (Field × Shape)} {k v : Value} (before after : Entries)
      (h : ∀ e ∈ fields, ∀ n, e.1.Spells n → k ≠ .text n) :
      Respelling (.record fields) (.map (before ++ after)) (.map (before ++ (k, v) :: after))
  | field {fields : List (Field × Shape)} {f : Field} {s : Shape} {k : String} {v w : Value}
      (before after : Entries) (hf : (f, s) ∈ fields) (hk : f.Spells k) (h : Respelling s v w) :
      Respelling (.record fields) (.map (before ++ (.text k, v) :: after))
        (.map (before ++ (.text k, w) :: after))

/-! ## Locations -/

/-- A key of a map by its text. -/
def Place.asKey : Place → Place
  | .key k => .key k
  | .index i => .key (toString i)

mutual
/-- The location with fields under their names and keys of maps as texts. -/
def Shape.canonical : Shape → List Place → List Place
  | .list item, p :: ps => p :: item.canonical ps
  | .map value, p :: ps => p.asKey :: value.canonical ps
  | .record fields, .key k :: ps => canonicalField fields k ps
  | _, ps => ps

def canonicalField : List (Field × Shape) → String → List Place → List Place
  | [], k, ps => .key k :: ps
  | (f, s) :: fields, k, ps =>
    if f.Spells k then .key f.name :: s.canonical ps else canonicalField fields k ps
end

variable {α β : Type}

def Problem.relocate (g : List Place → List Place) (p : Problem) : Problem :=
  { p with location := g p.location }

namespace Checked

def relocate (g : List Place → List Place) : Checked α → Checked α
  | ok a => ok a
  | bad ps => bad (ps.map (·.relocate g))

variable {g h : List Place → List Place}

theorem relocate_map (f : α → β) (c : Checked α) : (f <$> c).relocate g = f <$> c.relocate g := by
  cases c <;> rfl

theorem relocate_seq (f : Checked (α → β)) (c : Checked α) :
    (f <*> c).relocate g = f.relocate g <*> c.relocate g := by
  cases f <;> cases c <;> simp [Seq.seq, apply, relocate, problems]

theorem relocate_within {p q : Place} (hp : ∀ ps, g (p :: ps) = q :: h ps) (c : Checked α) :
    (c.within p).relocate g = (c.relocate h).within q := by
  cases c with
  | ok a => rfl
  | bad ps =>
    simp only [within, relocate, List.map_map]
    congr 1
    refine List.map_congr_left fun x _ => ?_
    simp only [Function.comp, Problem.relocate, Problem.within, hp]

end Checked

/-! ## Finding fields -/

/-- No two fields share a spelling. -/
def Apart (fields : List (Field × Shape)) : Prop :=
  fields.Pairwise fun e e' => ¬ e.1.Spells e'.1.name ∧ ¬ e.1.Spells e'.1.other

instance (fields : List (Field × Shape)) : Decidable (Apart fields) :=
  inferInstanceAs (Decidable (fields.Pairwise _))

variable {fields : List (Field × Shape)} {f : Field} {s : Shape} {k : String} {v w : Value}
  {es fs before after : Entries}

theorem Apart.eq {e e' : Field × Shape} (ha : Apart fields) (he : e ∈ fields) (he' : e' ∈ fields)
    (hk : e.1.Spells k) (hk' : e'.1.Spells k) : e = e' := by
  have hne : ∀ {d d' : Field × Shape}, d.1.Spells k → d'.1.Spells k →
      ¬ (¬ d.1.Spells d'.1.name ∧ ¬ d.1.Spells d'.1.other) := by
    rintro d d' hd (rfl | rfl) ⟨hname, hother⟩
    · exact hname hd
    · exact hother hd
  induction fields with
  | nil => cases he
  | cons d fields ih =>
    obtain ⟨hd, ha⟩ := List.pairwise_cons.1 ha
    rcases List.mem_cons.1 he with rfl | hr <;> rcases List.mem_cons.1 he' with rfl | hr'
    · rfl
    · exact absurd (hd _ hr') (hne hk hk')
    · exact absurd (hd _ hr) (hne hk' hk)
    · exact ih ha hr hr'

theorem canonical_field (ha : Apart fields) (hf : (f, s) ∈ fields) (hk : f.Spells k)
    (ps : List Place) :
    (Shape.record fields).canonical (.key k :: ps) = .key f.name :: s.canonical ps := by
  have hfield : ∀ {gs : List (Field × Shape)}, (∀ e ∈ gs, e ∈ fields) → (f, s) ∈ gs →
      canonicalField gs k ps = .key f.name :: s.canonical ps := by
    intro gs hgs hmem
    induction gs with
    | nil => cases hmem
    | cons e gs ih =>
      obtain ⟨g, t⟩ := e
      rw [canonicalField]
      split
      next hg =>
        cases ha.eq (hgs _ List.mem_cons_self) hf hg hk
        rfl
      next hg =>
        rcases List.mem_cons.1 hmem with h | h
        · cases h
          exact absurd hk hg
        · exact ih (fun e he => hgs e (List.mem_cons_of_mem _ he)) h
  rw [Shape.canonical]
  exact hfield (fun _ he => he) hf

theorem find_congr (h : ∀ k, f.Spells k → Value.entry? k es = Value.entry? k fs) :
    f.find es = f.find fs := by
  rw [Field.find, Field.find, h _ (.inl rfl), h _ (.inr rfl)]

theorem find_of_name (h : Value.entry? f.name es = some v) : f.find es = some (f.name, v) := by
  rw [Field.find, h]

theorem find_of_other (hn : Value.entry? f.name es = none) (h : Value.entry? f.other es = some v) :
    f.find es = some (f.other, v) := by
  rw [Field.find, hn, h]
  rfl

/-- What a field finds in two spellings of a record. -/
inductive Found (f : Field) (s : Shape) : Option (String × Value) → Option (String × Value) → Prop
  | absent : Found f s none none
  | same {j k : String} {v : Value} (hj : f.Spells j) (hk : f.Spells k) :
      Found f s (some (j, v)) (some (k, v))
  | respelled {k : String} {v w : Value} (hk : f.Spells k) (h : Respelling s v w) :
      Found f s (some (k, v)) (some (k, w))

theorem Found.of_eq (h : f.find es = f.find fs) : Found f s (f.find es) (f.find fs) := by
  rw [← h, Field.find]
  cases Value.entry? f.name es with
  | some v => exact .same (.inl rfl) (.inl rfl)
  | none =>
    cases Value.entry? f.other es with
    | some v => exact .same (.inr rfl) (.inr rfl)
    | none => exact .absent

theorem Found.name (h : ∀ k, f.Spells k → Value.entry? k (before ++ after) = none) :
    Found f s (f.find (before ++ (.text f.name, v) :: after))
      (f.find (before ++ (.text f.other, v) :: after)) := by
  have hbefore : ∀ k, f.Spells k → Value.entry? k before = none := fun k hk =>
    (Option.or_eq_none_iff.1 (entry?_append ▸ h k hk)).1
  rw [find_of_name (entry?_middle_of_none (hbefore _ (.inl rfl)))]
  by_cases he : f.other = f.name
  · rw [he, find_of_name (entry?_middle_of_none (hbefore _ (.inl rfl)))]
    exact .same (.inl rfl) (.inl rfl)
  · have hname : Value.entry? f.name (before ++ (.text f.other, v) :: after) = none := by
      rw [entry?_middle_of_ne fun e => he (Points.ofString_inj.1 (Value.text.inj e)),
        h _ (.inl rfl)]
    rw [find_of_other hname (entry?_middle_of_none (hbefore _ (.inr rfl)))]
    exact .same (.inl rfl) (.inr rfl)

theorem Found.field (hk : f.Spells k) (h : Respelling s v w) :
    Found f s (f.find (before ++ (.text k, v) :: after))
      (f.find (before ++ (.text k, w) :: after)) := by
  have hother : ∀ j, j ≠ k → Value.entry? j (before ++ (.text k, v) :: after) =
      Value.entry? j (before ++ (.text k, w) :: after) := by
    intro j hj
    have hne : Value.text k ≠ .text j := fun e =>
      hj (Points.ofString_inj.1 (Value.text.inj e)).symm
    rw [entry?_middle_of_ne hne, entry?_middle_of_ne hne]
  cases hb : Value.entry? k before with
  | some u =>
    -- an earlier entry of the same key hides the one that is respelled
    refine .of_eq (find_congr fun j _ => ?_)
    by_cases hj : j = k
    · rw [hj, entry?_append, entry?_append, hb]
      rfl
    · exact hother j hj
  | none =>
    by_cases hn : f.name = k
    · subst hn
      rw [find_of_name (entry?_middle_of_none hb), find_of_name (entry?_middle_of_none hb)]
      exact .respelled (.inl rfl) h
    · obtain rfl : k = f.other := hk.resolve_left (Ne.symm hn)
      have heq := hother _ hn
      cases hname : Value.entry? f.name (before ++ (.text f.other, w) :: after) with
      | some u =>
        rw [find_of_name (heq.trans hname), find_of_name hname]
        exact .same (.inl rfl) (.inl rfl)
      | none =>
        rw [find_of_other (heq.trans hname) (entry?_middle_of_none hb),
          find_of_other hname (entry?_middle_of_none hb)]
        exact .respelled (.inr rfl) h

theorem Respelling.found (ha : Apart fields) (hf : (f, s) ∈ fields)
    (h : Respelling (.record fields) (.map es) (.map fs)) :
    Found f s (f.find es) (f.find fs) := by
  cases h with
  | @name _ g t _ before after hg hnone =>
    by_cases he : (g, t) = (f, s)
    · cases he
      exact .name hnone
    · refine .of_eq (find_congr fun k hk => ?_)
      have hne : ∀ {n}, g.Spells n → Value.text n ≠ .text k := by
        rintro n hn e
        obtain rfl := Points.ofString_inj.1 (Value.text.inj e)
        exact he (ha.eq hg hf hn hk)
      rw [entry?_middle_of_ne (hne (.inl rfl)), entry?_middle_of_ne (hne (.inr rfl))]
  | unknown before after hnew =>
    refine .of_eq (find_congr fun k hk => ?_)
    rw [entry?_middle_of_ne (hnew _ hf k hk)]
  | @field _ g t k _ _ before after hg hk hvw =>
    by_cases hfk : f.Spells k
    · cases ha.eq hg hf hk hfk
      exact .field hk hvw
    · refine .of_eq (find_congr fun j hj => ?_)
      have hne : Value.text k ≠ .text j := by
        intro e
        obtain rfl := Points.ofString_inj.1 (Value.text.inj e)
        exact hfk hj
      rw [entry?_middle_of_ne hne, entry?_middle_of_ne hne]

/-! ## Readers -/

/-- Respelled values read alike. -/
def Shape.Admits (s : Shape) (read : Value → Checked α) : Prop :=
  ∀ v w, Respelling s v w →
    (read v).relocate s.canonical = (read w).relocate s.canonical

/-- Respelled records read alike. -/
def ReadsAlike (fields : List (Field × Shape)) (read : Entries → Checked α) : Prop :=
  ∀ es fs, Respelling (.record fields) (.map es) (.map fs) →
    (read es).relocate (Shape.record fields).canonical =
      (read fs).relocate (Shape.record fields).canonical

theorem Respelling.exists_map (h : Respelling (.record fields) v w) :
    ∃ es fs, v = .map es ∧ w = .map fs := by
  cases h with
  | name | unknown | field => exact ⟨_, _, rfl, rfl⟩

theorem Respelling.ne_null (h : Respelling s v w) : v ≠ .null ∧ w ≠ .null := by
  cases h <;> exact ⟨nofun, nofun⟩

theorem orNull_of_ne {read : Value → Checked α} (h : v ≠ .null) :
    orNull read v = some <$> read v := by
  cases v with
  | null => exact absurd rfl h
  | _ => rfl

theorem admits_text (rule : TextRule) : (Shape.text rule).Admits (text rule) := by
  intro v w h
  cases h with
  | number h => simp only [Schema.text, h, if_true, Points.toUnicode_ofString]
  | @truth _ b h => cases b <;> simp [Schema.text, h]

theorem admits_truth : Shape.truth.Admits truth := nofun

theorem Shape.Admits.orNull {read : Value → Checked α} (hr : s.Admits read) :
    s.Admits (orNull read) := by
  intro v w h
  rw [orNull_of_ne h.ne_null.1, orNull_of_ne h.ne_null.2, Checked.relocate_map,
    Checked.relocate_map, hr _ _ h]

theorem Shape.Admits.itemsFrom {read : Value → Checked α} (hr : s.Admits read)
    (h : Respelling s v w) (before after : List Value) (i : Nat) :
    (itemsFrom read i (before ++ v :: after)).relocate (Shape.list s).canonical =
      (itemsFrom read i (before ++ w :: after)).relocate (Shape.list s).canonical := by
  have hitem : ∀ (i : Nat) ps,
      (Shape.list s).canonical (.index i :: ps) = .index i :: s.canonical ps := fun _ _ => by
    rw [Shape.canonical]
  induction before generalizing i with
  | nil =>
    simp only [List.nil_append, Schema.itemsFrom, Checked.relocate_seq, Checked.relocate_map,
      Checked.relocate_within (hitem i), hr _ _ h]
  | cons u before ih =>
    simp only [List.cons_append, Schema.itemsFrom, Checked.relocate_seq, Checked.relocate_map, ih]

theorem Shape.Admits.list {read : Value → Checked α} (hr : s.Admits read) :
    (Shape.list s).Admits (Schema.list read) := by
  intro v w h
  cases h with
  | item before after h => exact hr.itemsFrom h before after 0

theorem asKey_keyPlace_int (i : Int) : (keyPlace (.int i)).asKey = .key (toString i) := by
  rw [keyPlace]
  split <;> rfl

theorem canonical_map (p : Place) (ps : List Place) :
    (Shape.map s).canonical (p :: ps) = p.asKey :: s.canonical ps := by
  rw [Shape.canonical]

/-- Entries that differ in one place read alike if those two do. -/
theorem relocate_mapEntries {g : List Place → List Place} {read : Value → Checked α}
    {j k v w : Value}
    (hk : (((text plainText j).within (.key "[key]")).within (keyPlace j)).relocate g =
      (((text plainText k).within (.key "[key]")).within (keyPlace k)).relocate g)
    (hv : ((read v).within (keyPlace j)).relocate g = ((read w).within (keyPlace k)).relocate g)
    (before after : Entries) :
    (mapEntries read (before ++ (j, v) :: after)).relocate g =
      (mapEntries read (before ++ (k, w) :: after)).relocate g := by
  induction before with
  | nil =>
    simp only [List.nil_append, mapEntries, Checked.relocate_seq, Checked.relocate_map, hk, hv]
  | cons u before ih =>
    simp only [List.cons_append, mapEntries, Checked.relocate_seq, Checked.relocate_map, ih]

theorem Shape.Admits.map {read : Value → Checked α} (hr : s.Admits read) :
    (Shape.map s).Admits (Schema.map read) := by
  intro v w h
  have hplace : ∀ (k : Value) (c : Checked α),
      (c.within (keyPlace k)).relocate (Shape.map s).canonical =
        (c.relocate s.canonical).within (keyPlace k).asKey := fun k c =>
    Checked.relocate_within (canonical_map (keyPlace k)) c
  simp only [Schema.map]
  cases h with
  | @key _ i _ before after h =>
    rw [Checked.relocate_map, Checked.relocate_map]
    -- both keys are texts, and the same one
    have hkey : Schema.text plainText (.text (toString i)) = Schema.text plainText (.int i) :=
      congrArg Checked.ok (Points.toUnicode_ofString (toString i))
    have hsame : (keyPlace (.text (toString i))).asKey = (keyPlace (.int i)).asKey := by
      rw [asKey_keyPlace_int, keyPlace, placeText_ofString, Place.asKey]
    refine congrArg _ (relocate_mapEntries ?_ ?_ before after)
    · rw [hkey]
      rfl
    · rw [hplace, hplace, hsame]
  | entry before after h =>
    rw [Checked.relocate_map, Checked.relocate_map]
    refine congrArg _ (relocate_mapEntries ?_ ?_ before after)
    · rfl
    · rw [hplace, hplace, hr _ _ h]

/-! ## Readers of records -/

theorem ReadsAlike.record {name : String} {read : Entries → Checked α}
    (hr : ReadsAlike fields read) : (Shape.record fields).Admits (record name read) := by
  intro v w h
  obtain ⟨es, fs, rfl, rfl⟩ := h.exists_map
  exact hr _ _ h

theorem ReadsAlike.map (f : α → β) {c : Entries → Checked α} (hc : ReadsAlike fields c) :
    ReadsAlike fields fun es => f <$> c es := by
  intro es fs h
  rw [Checked.relocate_map, Checked.relocate_map, hc _ _ h]

theorem ReadsAlike.seq {g : Entries → Checked (α → β)} {c : Entries → Checked α}
    (hg : ReadsAlike fields g) (hc : ReadsAlike fields c) :
    ReadsAlike fields fun es => g es <*> c es := by
  intro es fs h
  rw [Checked.relocate_seq, Checked.relocate_seq, hg _ _ h, hc _ _ h]

/-- A value found in two spellings, or what stands in for it, reads alike. -/
theorem Found.relocate_eq {read : Value → Checked α} {o o' : Option (String × Value)}
    (h : Found f s o o') (ha : Apart fields) (hf : (f, s) ∈ fields) (hr : s.Admits read)
    (missing : Checked α) :
    (match o with
      | some (k, v) => Checked.within (.key k) (read v)
      | none => missing).relocate (Shape.record fields).canonical =
    (match o' with
      | some (k, v) => Checked.within (.key k) (read v)
      | none => missing).relocate (Shape.record fields).canonical := by
  have hplace := fun {k} (hk : f.Spells k) => canonical_field ha hf hk
  cases h with
  | absent => rfl
  | same hj hk =>
    simp only [Checked.relocate_within (hplace hj), Checked.relocate_within (hplace hk)]
  | respelled hk h => simp only [Checked.relocate_within (hplace hk), hr _ _ h]

theorem ReadsAlike.withDefault (ha : Apart fields) (hf : (f, s) ∈ fields) {default : α}
    {read : Value → Checked α} (hr : s.Admits read) :
    ReadsAlike fields (Schema.withDefault f default read) := fun _ _ h =>
  (h.found ha hf).relocate_eq ha hf hr (.ok default)

theorem ReadsAlike.optional (ha : Apart fields) (hf : (f, s) ∈ fields) {read : Value → Checked α}
    (hr : s.Admits read) : ReadsAlike fields (Schema.optional f read) :=
  ReadsAlike.withDefault ha hf hr.orNull

theorem ReadsAlike.required (ha : Apart fields) (hf : (f, s) ∈ fields) {read : Value → Checked α}
    (hr : s.Admits read) : ReadsAlike fields (Schema.required f read) := fun _ _ h =>
  (h.found ha hf).relocate_eq ha hf hr (Checked.within (.key f.name) (.refuse .present))

/-- Any number of respellings, in both directions. -/
theorem Shape.Admits.eq_of_eqvGen {read : Value → Checked α} (hr : s.Admits read)
    (h : Relation.EqvGen (Respelling s) v w) :
    (read v).relocate s.canonical = (read w).relocate s.canonical := by
  induction h with
  | rel v w h => exact hr _ _ h
  | refl v => rfl
  | symm v w _ ih => exact ih.symm
  | trans u v w _ _ ih ih' => exact ih.trans ih'

end RouteCompiler.Schema
