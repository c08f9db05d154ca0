import RouteCompiler.Proofs.Compile
import RouteCompiler.Proofs.Yaml.ReadingFailure
import RouteCompiler.Yaml.Value.OfNode

/-!
Why a text has no value. Its tokens make a node unless they are malformed or the scanner cut them
short; then every part of the node is looked into, and what fails there, short of malformed
documents, is a scalar whose text is not what its tag promises.
-/

namespace RouteCompiler.Yaml

variable {α β : Type}

/-! ## Parts of a node -/

namespace Node

/-- The node is the whole or stands inside it. -/
inductive Within (m : Node) : Node → Prop
  | self : Within m m
  | item {a : Option String} {tag : Tag} {items : List Node} {n : Node} (hn : n ∈ items)
      (h : Within m n) : Within m (.seq a tag items)
  | key {a : Option String} {tag : Tag} {entries : List (Node × Node)} {e : Node × Node}
      (he : e ∈ entries) (h : Within m e.1) : Within m (.map a tag entries)
  | value {a : Option String} {tag : Tag} {entries : List (Node × Node)} {e : Node × Node}
      (he : e ∈ entries) (h : Within m e.2) : Within m (.map a tag entries)

theorem Within.trans {l m n : Node} (hl : Within l m) (hm : Within m n) : Within l n := by
  induction hm with
  | self => exact hl
  | item hn _ ih => exact .item hn ih
  | key he _ ih => exact .key he ih
  | value he _ ih => exact .value he ih

variable {a : Option String} {tag : Tag} {items : List Node} {entries : List (Node × Node)}
  {e : Node × Node} {m n root : Node}

theorem Within.of_item (h : Within (.seq a tag items) root) (hn : n ∈ items) : Within n root :=
  (Within.item hn .self).trans h

theorem Within.of_key (h : Within (.map a tag entries) root) (he : e ∈ entries) :
    Within e.1 root :=
  (Within.key he .self).trans h

theorem Within.of_value (h : Within (.map a tag entries) root) (he : e ∈ entries) :
    Within e.2 root :=
  (Within.value he .self).trans h

mutual
theorem within_of_mem_anchored {name : String} :
    ∀ {n : Node}, (name, m) ∈ n.anchored → Within m n
  | .scalar a tag s, h => by
    simp only [anchored, List.mem_map, Prod.mk.injEq] at h
    obtain ⟨_, _, _, rfl⟩ := h
    exact .self
  | .seq a tag items, h => by
    simp only [anchored, List.mem_append, List.mem_map, Prod.mk.injEq] at h
    obtain ⟨_, _, _, rfl⟩ | h := h
    · exact .self
    · obtain ⟨n, hn, hm⟩ := exists_item_of_mem_anchored h
      exact .item hn hm
  | .map a tag entries, h => by
    simp only [anchored, List.mem_append, List.mem_map, Prod.mk.injEq] at h
    obtain ⟨_, _, _, rfl⟩ | h := h
    · exact .self
    · obtain ⟨e, he, hm | hm⟩ := exists_entry_of_mem_anchored h
      · exact .key he hm
      · exact .value he hm
  | .alias _, h => by
    rw [anchored] at h
    cases h

theorem exists_item_of_mem_anchored {name : String} :
    ∀ {items : List Node}, (name, m) ∈ anchoredInItems items → ∃ n ∈ items, Within m n
  | [], h => by
    rw [anchoredInItems] at h
    cases h
  | n :: r, h => by
    rw [anchoredInItems, List.mem_append] at h
    obtain h | h := h
    · exact ⟨n, List.mem_cons_self, within_of_mem_anchored h⟩
    · obtain ⟨n', hn', hm⟩ := exists_item_of_mem_anchored h
      exact ⟨n', List.mem_cons_of_mem _ hn', hm⟩

theorem exists_entry_of_mem_anchored {name : String} :
    ∀ {entries : List (Node × Node)}, (name, m) ∈ anchoredInEntries entries →
      ∃ e ∈ entries, Within m e.1 ∨ Within m e.2
  | [], h => by
    rw [anchoredInEntries] at h
    cases h
  | (k, v) :: r, h => by
    rw [anchoredInEntries, List.mem_append, List.mem_append] at h
    obtain (h | h) | h := h
    · exact ⟨(k, v), List.mem_cons_self, .inl (within_of_mem_anchored h)⟩
    · exact ⟨(k, v), List.mem_cons_self, .inr (within_of_mem_anchored h)⟩
    · obtain ⟨e, he, hm⟩ := exists_entry_of_mem_anchored h
      exact ⟨e, List.mem_cons_of_mem _ he, hm⟩
end

/-! ## Aliases -/

/-- From the names seen in front of some nodes to those seen behind them: none is forgotten, new
ones are anchored in the nodes, and what is mentioned there has been seen. -/
structure Sees (seen seen' : List String) (anchored : Anchors) (mentioned : String → Bool) :
    Prop where
  keeps : ∀ a ∈ seen, a ∈ seen'
  finds : ∀ a ∈ seen', a ∈ seen ∨ ∃ m, (a, m) ∈ anchored
  knows : ∀ a, mentioned a = true → a ∈ seen'

namespace Sees

variable {s t u : List String} {A B : Anchors} {M N : String → Bool}

theorem refl (s : List String) : Sees s s [] fun _ => false :=
  ⟨fun _ h => h, fun _ h => .inl h, fun _ h => absurd h Bool.false_ne_true⟩

theorem trans (h : Sees s t A M) (h' : Sees t u B N) : Sees s u (A ++ B) fun a => M a || N a := by
  refine ⟨fun a ha => h'.keeps a (h.keeps a ha), fun a ha => ?_, fun a ha => ?_⟩
  · obtain ha | ⟨m, hm⟩ := h'.finds a ha
    · exact (h.finds a ha).imp_right fun ⟨m, hm⟩ => ⟨m, List.mem_append_left B hm⟩
    · exact .inr ⟨m, List.mem_append_right A hm⟩
  · obtain ha | ha := Bool.or_eq_true_iff.1 ha
    · exact h'.keeps a (h.knows a ha)
    · exact h'.knows a ha

end Sees

theorem sees_addAnchor {s t : List String} (n : Node) (h : addAnchor s a = some t) :
    Sees s t (a.toList.map (·, n)) fun _ => false := by
  cases a with
  | none =>
    cases h
    exact .refl s
  | some a =>
    rw [addAnchor] at h
    split at h
    · cases h
    · cases h
      refine ⟨fun b hb => List.mem_cons_of_mem a hb, fun b hb => ?_,
        fun _ h => absurd h Bool.false_ne_true⟩
      obtain rfl | hb := List.mem_cons.1 hb
      · exact .inr ⟨n, List.mem_singleton.2 rfl⟩
      · exact .inl hb

mutual
theorem sees_anchors {s t : List String} :
    ∀ {n : Node}, n.anchors s = some t → Sees s t n.anchored (mentions · n)
  | .scalar a tag text, h => by
    simp only [anchored, mentions]
    exact sees_addAnchor _ h
  | .seq a tag items, h => by
    rw [anchors] at h
    obtain ⟨u, hu, h⟩ := Option.bind_eq_some_iff.1 h
    simp only [anchored, mentions]
    exact (sees_addAnchor _ hu).trans (sees_anchorsOfItems h)
  | .map a tag entries, h => by
    rw [anchors] at h
    obtain ⟨u, hu, h⟩ := Option.bind_eq_some_iff.1 h
    simp only [anchored, mentions]
    exact (sees_addAnchor _ hu).trans (sees_anchorsOfEntries h)
  | .alias name, h => by
    rw [anchors] at h
    split at h
    next hs =>
      cases h
      simp only [anchored, mentions]
      refine ⟨fun _ h => h, fun _ h => .inl h, fun a ha => ?_⟩
      rw [← beq_iff_eq.1 ha]
      exact List.contains_iff_mem.1 hs
    next => cases h

theorem sees_anchorsOfItems {s t : List String} : ∀ {items : List Node},
    anchorsOfItems s items = some t → Sees s t (anchoredInItems items) (mentionsInItems · items)
  | [], h => by
    cases h
    exact .refl s
  | n :: r, h => by
    rw [anchorsOfItems] at h
    obtain ⟨u, hu, h⟩ := Option.bind_eq_some_iff.1 h
    simp only [anchoredInItems, mentionsInItems]
    exact (sees_anchors hu).trans (sees_anchorsOfItems h)

theorem sees_anchorsOfEntries {s t : List String} : ∀ {entries : List (Node × Node)},
    anchorsOfEntries s entries = some t →
      Sees s t (anchoredInEntries entries) (mentionsInEntries · entries)
  | [], h => by
    cases h
    exact .refl s
  | (k, v) :: r, h => by
    rw [anchorsOfEntries] at h
    obtain ⟨u, hu, h⟩ := Option.bind_eq_some_iff.1 h
    obtain ⟨w, hw, h⟩ := Option.bind_eq_some_iff.1 h
    simp only [anchoredInEntries, mentionsInEntries]
    exact ((sees_anchors hu).trans (sees_anchors hw)).trans (sees_anchorsOfEntries h)
end

theorem mentionsInItems_of_mem {name : String} (hn : n ∈ items) (h : n.mentions name = true) :
    mentionsInItems name items = true := by
  induction items with
  | nil => cases hn
  | cons m r ih =>
    rw [mentionsInItems, Bool.or_eq_true]
    obtain rfl | hn := List.mem_cons.1 hn
    · exact .inl h
    · exact .inr (ih hn)

theorem mentionsInEntries_of_mem {name : String} (he : e ∈ entries)
    (h : e.1.mentions name = true ∨ e.2.mentions name = true) :
    mentionsInEntries name entries = true := by
  induction entries with
  | nil => cases he
  | cons d r ih =>
    rw [mentionsInEntries, Bool.or_eq_true, Bool.or_eq_true]
    obtain rfl | he := List.mem_cons.1 he
    · exact .inl h
    · exact .inr (ih he)

theorem mentions_of_within {name : String} (h : Within (.alias name) n) :
    n.mentions name = true := by
  induction h with
  | self => rw [mentions, beq_self_eq_true]
  | item hn _ ih =>
    rw [mentions]
    exact mentionsInItems_of_mem hn ih
  | key he _ ih =>
    rw [mentions]
    exact mentionsInEntries_of_mem he (.inl ih)
  | value he _ ih =>
    rw [mentions]
    exact mentionsInEntries_of_mem he (.inr ih)

/-- Every alias stands for a part of the document. -/
def Closed (root : Node) : Prop :=
  ∀ name, Within (.alias name) root → ∃ m, root.anchored.lookup name = some m

theorem closed_of_anchors (h : (root.anchors []).isSome = true) : Closed root := by
  intro name hname
  obtain ⟨seen, hseen⟩ := Option.isSome_iff_exists.1 h
  have hsees := sees_anchors hseen
  obtain hnil | ⟨m, hm⟩ := hsees.finds name (hsees.knows name (mentions_of_within hname))
  · cases hnil
  · cases hl : root.anchored.lookup name with
    | some m => exact ⟨m, rfl⟩
    | none => simpa using List.lookup_eq_none_iff.1 hl _ hm

/-! ## Settled nodes -/

/-- A part of the document, perhaps as it is once it is settled: a scalar as plain text, or a
mapping with what is merged into it. -/
inductive Shown (root : Node) : Node → Prop
  | part {n : Node} (h : Within n root) : Shown root n
  | text {a : Option String} {tag : Tag} {s : Points} (h : Within (.scalar a tag s) root) :
    Shown root (.scalar a .str s)
  | settled {a : Option String} {tag : Tag} {es es' : List (Node × Node)}
    (h : Within (.map a tag es) root) (hk : ∀ e ∈ es', Shown root e.1)
    (hv : ∀ e ∈ es', Within e.2 root) : Shown root (.map a tag es')

/-- The entries are made of parts of the document, their keys perhaps settled. -/
structure Entered (root : Node) (es : List (Node × Node)) : Prop where
  keys : ∀ e ∈ es, Shown root e.1
  values : ∀ e ∈ es, Within e.2 root

theorem Entered.nil : Entered root [] := ⟨List.forall_mem_nil _, List.forall_mem_nil _⟩

theorem Entered.subset {es es' : List (Node × Node)} (h : Entered root es)
    (hs : ∀ e ∈ es', e ∈ es) : Entered root es' :=
  ⟨fun e he => h.keys e (hs e he), fun e he => h.values e (hs e he)⟩

theorem Entered.append {es es' : List (Node × Node)} (h : Entered root es)
    (h' : Entered root es') : Entered root (es ++ es') :=
  ⟨fun e he => (List.mem_append.1 he).elim (h.keys e) (h'.keys e),
    fun e he => (List.mem_append.1 he).elim (h.values e) (h'.values e)⟩

theorem entered_flatMap {f : α → List (Node × Node)} {l : List α}
    (h : ∀ x ∈ l, Entered root (f x)) : Entered root (l.flatMap f) := by
  refine ⟨fun e he => ?_, fun e he => ?_⟩ <;> obtain ⟨x, hx, he⟩ := List.mem_flatMap.1 he
  · exact (h x hx).keys e he
  · exact (h x hx).values e he

namespace Shown

theorem entered (h : Shown root (.map a tag entries)) : Entered root entries := by
  cases h with
  | part h => exact ⟨fun _ he => .part (h.of_key he), fun _ he => h.of_value he⟩
  | settled _ hk hv => exact ⟨hk, hv⟩

theorem entriesOf (h : Shown root n) : Entered root n.entriesOf := by
  cases n with
  | map => exact h.entered
  | _ => exact .nil

theorem exists_map (h : Shown root (.map a tag entries)) : ∃ es, Within (.map a tag es) root := by
  cases h with
  | part h | settled h _ _ => exact ⟨_, h⟩

theorem exists_scalar {s : Points} (h : Shown root (.scalar a tag s)) :
    ∃ tag', Within (.scalar a tag' s) root := by
  cases h with
  | part h | text h => exact ⟨_, h⟩

theorem within_seq (h : Shown root (.seq a tag items)) : Within (.seq a tag items) root := by
  cases h with
  | part h => exact h

theorem withEntries {es : List (Node × Node)} (h : Shown root (.map a tag entries))
    (he : Entered root es) : Shown root (.map a tag es) := by
  obtain ⟨_, h⟩ := h.exists_map
  exact .settled h he.keys he.values

theorem asText (h : Shown root n) : Shown root n.asText := by
  unfold Node.asText
  split
  · obtain ⟨_, h⟩ := h.exists_scalar
    exact .text h
  · exact h

variable (hroot : Closed root)
include hroot

theorem resolve (h : Shown root n) : Shown root (resolve root.anchored n) := by
  cases n with
  | «alias» name =>
    cases h with
    | part h =>
      obtain ⟨m, hm⟩ := hroot name h
      rw [Node.resolve, hm]
      exact .part (within_of_mem_anchored (mem_of_lookup hm))
  | _ => exact h

end Shown

/-! ## Merging -/

section
variable (hroot : Closed root)
include hroot

/-- Mappings to be merged are parts of the document. -/
theorem ends_sources {v : Node} (h : Within v root) :
    Ends (· = .malformed) (fun ms => ∀ m ∈ ms, Within m root) (sources root.anchored v) := by
  unfold sources
  split
  · exact fun m hm => List.mem_singleton.1 hm ▸ h
  next a tag items hr =>
    have hseq : Shown root (.seq a tag items) := hr ▸ (Shown.part h).resolve hroot
    split
    · exact fun m hm => hseq.within_seq.of_item (List.mem_reverse.1 hm)
    · exact rfl
  · exact rfl

theorem ends_merged (f : Nat) (busy : List String) {es : List (Node × Node)}
    (he : Entered root es) : Ends (· = .malformed) (fun x => Entered root x.1)
      (merged root.anchored f busy es) := by
  induction f generalizing busy es with
  | zero => exact Entered.nil
  | succ f ih =>
    have hown : ∀ {es : List (Node × Node)}, Entered root es →
        Entered root (es.filter fun e => !isMergeKey root.anchored e.1) := fun h =>
      h.subset fun e he => (List.mem_filter.1 he).1
    rw [merged]
    refine (Ends.mapM (fun part => ∀ x ∈ part, Entered root x.1) fun e hm => ?_).bind
      fun parts hparts => ?_
    · have hv : Within e.2 root := he.values e (List.mem_filter.1 hm).1
      refine (ends_sources hroot hv).bind fun ms hms => ?_
      refine Ends.mapM (fun x : List (Node × Node) × List String => Entered root x.1)
        fun m hm => ?_
      have hentries := ((Shown.part (hms m hm)).resolve hroot).entriesOf
      dsimp only
      split
      · exact hown hentries
      · exact (ih _ hentries).bind fun _ hx => hx
    · refine .append (entered_flatMap fun x hx => ?_) (hown he)
      obtain ⟨part, hpart, hx⟩ := List.mem_flatten.1 hx
      exact hparts part hpart x hx

theorem ends_settle (h : Shown root n) :
    Ends (· = .malformed) (fun x => Entered root x.1) (settle root.anchored n) := by
  refine (ends_merged hroot _ _ h.entriesOf).bind fun x hx => ⟨fun e he => ?_, fun e he => ?_⟩ <;>
    obtain ⟨d, hd, rfl⟩ := List.mem_map.1 he
  · exact (hx.keys d hd).asText
  · exact hx.values d hd

theorem Shown.current (h : Shown root n) (settled : List String) :
    Shown root (current root.anchored settled n) := by
  have hm := h.resolve hroot
  unfold Node.current
  dsimp only
  split
  · split
    next a tag es hr =>
      have hmap : Shown root (.map a tag es) := hr ▸ hm
      refine hmap.withEntries ?_
      cases hs : settle root.anchored (Node.resolve root.anchored n) with
      | ok x => exact (ends_settle hroot hm).of_ok hs
      | error e => exact hmap.entered
    next => exact hm.asText
  · exact hm

end

/-! ## Scalars that do not fit -/

/-- The tags that promise a truth value, a number or a moment. -/
def promising : List Tag := [.bool, .int, .float, .timestamp]

/-- A scalar is not what its tag promises; the text of another one may stand for a mapping. -/
inductive Misfit (root : Node) (e : Error) : Node → Prop
  | scalar {a : Option String} {tag : Tag} {s : Points} (ht : tag ∈ promising)
      (h : Scalar.value tag s = .error e) : Misfit root e (.scalar a tag s)
  | map {a b : Option String} {tag tag' : Tag} {entries : List (Node × Node)} {s : Points}
      (ht : tag ∈ promising) (hs : Within (.scalar b tag' s) root)
      (h : Scalar.value tag s = .error e) : Misfit root e (.map a tag entries)
  | moment {a : Option String} {entries : List (Node × Node)} (he : e = .momentMapping) :
      Misfit root e (.map a .timestamp entries)

section
variable (hroot : Closed root)
include hroot

end

end Node

/-! ## Texts -/

/-- The tokens of the text make this node. -/
def Writes (s : String) (n : Node) : Prop :=
  Node.ofTokens (scan s.toList).1.toList (scan s.toList).2 = .ok (some n)

theorem Writes.closed {s : String} {n : Node} (h : Writes s n) : n.Closed := by
  rw [Writes, Node.ofTokens] at h
  split at h
  · cases h
  · obtain ⟨⟨m, r⟩, -, h⟩ := exists_of_bind_eq_ok h
    obtain ⟨_, -, h⟩ := exists_of_bind_eq_ok h
    split at h
    next hall =>
      obtain rfl := Except.ok.inj h
      exact Node.closed_of_anchors hall
    next => cases h

/-- Why a text that is not malformed has no value. -/
inductive Refusal (s : String) (e : Error) : Prop
  | escape (h : Overflows s.toList e)
  | scalar {root m : Node} (hroot : Writes s root) (hm : Node.Within m root)
      (h : Node.Misfit root e m)

end RouteCompiler.Yaml
