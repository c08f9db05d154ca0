import RouteCompiler.Proofs.Yaml.Collections
import RouteCompiler.Yaml.Node.OfTokens

/-!
Tokens of written documents come to their nodes: each construct is read from the front of the
tokens, whatever is behind it. The bound on nesting is twice the number of tokens, which no
construct reaches.
-/

namespace RouteCompiler.Yaml

open Scan (scalarToken)

def Node.text (s : Points) : Node := .scalar none .str s

/-- The tokens go on with an entry of a mapping, or the mapping ends. -/
def EntryAhead (r : List Token) : Prop := ∃ r', r = .key :: r' ∨ r = .blockEnd :: r'

def StartsNode (ts : List Token) : Prop :=
  ∃ t r, ts = t :: r ∧ t ≠ .key ∧ t ≠ .value ∧ t ≠ .blockEnd

/-- The tokens are read as the node where it is the key or the value of an entry. -/
def ReadsEntry (ts : List Token) (n : Node) : Prop :=
  StartsNode ts ∧ ∀ (g : Reading) (f : Nat) (r : List Token), 2 * ts.length + 2 ≤ f →
    EntryAhead r → g.node true true f (ts ++ r) = .ok (n, r)

/-- The tokens are read as the node where it is an item. -/
def ReadsItem (ts : List Token) (n : Node) : Prop :=
  StartsNode ts ∧ ts.head? ≠ some .blockEntry ∧ ∀ (g : Reading) (f : Nat) (r : List Token),
    2 * ts.length + 2 ≤ f → g.node true false f (ts ++ r) = .ok (n, r)

namespace Reading

variable {g : Reading} {f : Nat}

theorem node_scalar (block indentless plain : Bool) (text : Points) (r : List Token) :
    g.node block indentless (f + 1) (.scalar text plain :: r) =
      .ok (.scalar none (if plain then Tag.ofPlain text.toList else .str) text, r) := by
  simp [node, properties, scalarTag, bind, Except.bind, pure, Except.pure]

theorem node_map {es : List (Node × Node)} {ts r : List Token} (indentless : Bool)
    (h : g.blockEntries f ts = .ok (es, r)) :
    g.node true indentless (f + 1) (.blockMapStart :: ts) = .ok (.map none .map es, r) := by
  cases indentless <;>
    simp [node, properties, collectionTag, bind, Except.bind, pure, Except.pure, h]

theorem node_items {ns : List Node} {ts r : List Token}
    (h : g.indentlessItems f (.blockEntry :: ts) = .ok (ns, r)) :
    g.node true true (f + 1) (.blockEntry :: ts) = .ok (.seq none .seq ns, r) := by
  simp [node, properties, collectionTag, bind, Except.bind, pure, Except.pure, h]

theorem node_emptySeq (r : List Token) :
    g.node true true (f + 2) (.flowSeqStart :: .flowSeqEnd :: r) =
      .ok (.seq none .seq [], r) := by
  simp [node, properties, collectionTag, flowItems, bind, Except.bind, pure, Except.pure]

theorem blockEntries_end (r : List Token) :
    g.blockEntries (f + 1) (.blockEnd :: r) = .ok ([], r) := by
  simp [blockEntries]

theorem blockEntries_entry {key : Points} {plain : Bool} {v : Node} {es : List (Node × Node)}
    {vs r r' : List Token} (hkey : plain = true → Tag.ofPlain key.toList = .str)
    (hvs : StartsNode vs) (hv : g.node true true (f + 1) (vs ++ r) = .ok (v, r))
    (h : g.blockEntries (f + 1) r = .ok (es, r')) :
    g.blockEntries (f + 2) (.key :: .scalar key plain :: .value :: (vs ++ r)) =
      .ok ((Node.text key, v) :: es, r') := by
  obtain ⟨u, vs, rfl, h₁, h₂, h₃⟩ := hvs
  have hk := node_scalar true true plain key (.value :: (u :: vs ++ r)) (g := g) (f := f)
  have htag : (if plain then Tag.ofPlain key.toList else .str) = .str := by
    cases plain with
    | true => exact hkey rfl
    | false => rfl
  rw [htag] at hk
  rw [blockEntries]
  · simp only [hk, bind, Except.bind, pure, Except.pure]
    split
    · rename_i heq
      exact absurd (List.cons.inj heq).1 h₁
    · rename_i heq
      exact absurd (List.cons.inj heq).1 h₂
    · rename_i heq
      exact absurd (List.cons.inj heq).1 h₃
    · rw [hv]
      simp only [h]
      rfl
  · simp
  · simp
  · simp

theorem indentlessItems_end {r : List Token} (hr : EntryAhead r) :
    g.indentlessItems (f + 1) r = .ok ([], r) := by
  obtain ⟨r', rfl | rfl⟩ := hr <;> simp [indentlessItems]

theorem indentlessItems_item {n : Node} {ns : List Node} {ts r r' : List Token}
    (hts : StartsNode ts) (hitem : ts.head? ≠ some .blockEntry)
    (hn : g.node true false f (ts ++ r) = .ok (n, r))
    (h : g.indentlessItems f r = .ok (ns, r')) :
    g.indentlessItems (f + 1) (.blockEntry :: (ts ++ r)) = .ok (n :: ns, r') := by
  obtain ⟨t, ts, rfl, h₁, h₂, h₃⟩ := hts
  have h₄ : t ≠ .blockEntry := fun e => hitem (by rw [e]; rfl)
  have hne {d : Token} (hd : t ≠ d) (tail : List Token) : t :: ts ++ r = d :: tail → False :=
    fun e => hd (List.cons.inj e).1
  rw [indentlessItems]
  · simp only [hn, h, bind, Except.bind, pure, Except.pure]
  · exact hne h₄
  · exact hne h₁
  · exact hne h₂
  · exact hne h₃

end Reading

/-! ## Constructs -/

/-- An entry of a mapping: its key, and the tokens and the node of its value. -/
structure WrittenEntry where
  key : String
  tokens : List Token
  node : Node

namespace WrittenEntry

def written (e : WrittenEntry) : List Token := .key :: .scalar e.key true :: .value :: e.tokens

def entry (e : WrittenEntry) : Node × Node := (Node.text e.key, e.node)

/-- The key is no other thing than text, and the value is read. -/
structure Reads (e : WrittenEntry) : Prop where
  key : Tag.ofPlain e.key.toList = .str
  value : ReadsEntry e.tokens e.node

end WrittenEntry

theorem entryAhead_written (es : List WrittenEntry) (r : List Token) :
    EntryAhead (es.flatMap WrittenEntry.written ++ .blockEnd :: r) := by
  cases es with
  | nil => exact ⟨r, .inr rfl⟩
  | cons e es => exact ⟨_, .inl rfl⟩

theorem blockEntries_written {g : Reading} {f : Nat} {es : List WrittenEntry} {r : List Token}
    (h : ∀ e ∈ es, e.Reads) (hf : 2 * (es.flatMap WrittenEntry.written).length + 2 ≤ f) :
    g.blockEntries f (es.flatMap WrittenEntry.written ++ .blockEnd :: r) =
      .ok (es.map WrittenEntry.entry, r) := by
  induction es generalizing f with
  | nil =>
    obtain ⟨f, rfl⟩ : ∃ f', f = f' + 1 := ⟨f - 1, by omega⟩
    exact Reading.blockEntries_end r
  | cons e es ih =>
    obtain ⟨f, rfl⟩ : ∃ f', f = f' + 2 := ⟨f - 2, by omega⟩
    obtain ⟨hkey, hstart, hread⟩ := h e List.mem_cons_self
    simp only [List.flatMap_cons, WrittenEntry.written, List.length_append, List.length_cons] at hf
    have hrest := ih (f := f + 1) (fun d hd => h d (List.mem_cons_of_mem e hd)) (by omega)
    have hv := hread g (f + 1) _ (by omega) (entryAhead_written es r)
    have hkey' : true = true → Tag.ofPlain (Points.ofString e.key).toList = .str := by
      simpa using hkey
    have hall := Reading.blockEntries_entry hkey' hstart hv hrest
    simpa [WrittenEntry.written, WrittenEntry.entry] using hall

theorem readsEntry_scalar (text : Points) : ReadsEntry [scalarToken text] (Node.text text) := by
  refine ⟨⟨_, _, rfl, by simp [scalarToken], by simp [scalarToken], by simp [scalarToken]⟩, ?_⟩
  intro g f r hf _
  obtain ⟨f, rfl⟩ : ∃ f', f = f' + 1 := ⟨f - 1, by omega⟩
  have htag : (if decide (Style.ofText text.toList = .plain) then Tag.ofPlain text.toList
      else .str) = .str := by
    split
    · rename_i h
      exact (of_allowsPlain (allowsPlain_of_ofText (by simpa using h))).2.2.1
    · rfl
  rw [scalarToken, List.singleton_append, Reading.node_scalar, htag]
  rfl

theorem readsItem_map {es : List WrittenEntry} (h : ∀ e ∈ es, e.Reads) :
    ReadsItem (.blockMapStart :: (es.flatMap WrittenEntry.written ++ [.blockEnd]))
      (.map none .map (es.map WrittenEntry.entry)) := by
  refine ⟨⟨_, _, rfl, by decide, by decide, by decide⟩, by simp, ?_⟩
  intro g f r hf
  obtain ⟨f, rfl⟩ : ∃ f', f = f' + 1 := ⟨f - 1, by omega⟩
  simp only [List.length_cons, List.length_append, List.length_nil] at hf
  have hread := blockEntries_written (g := g) (f := f) (r := r) h (by omega)
  rw [List.cons_append, List.append_assoc]
  exact Reading.node_map false hread

theorem indentlessItems_items {g : Reading} {f : Nat} {l : List (List Token × Node)}
    {r : List Token} (h : ∀ i ∈ l, ReadsItem i.1 i.2) (hr : EntryAhead r)
    (hf : 2 * (l.flatMap fun i => .blockEntry :: i.1).length + 1 ≤ f) :
    g.indentlessItems f ((l.flatMap fun i => .blockEntry :: i.1) ++ r) =
      .ok (l.map Prod.snd, r) := by
  induction l generalizing f with
  | nil =>
    obtain ⟨f, rfl⟩ : ∃ f', f = f' + 1 := ⟨f - 1, by omega⟩
    exact Reading.indentlessItems_end hr
  | cons i l ih =>
    obtain ⟨f, rfl⟩ : ∃ f', f = f' + 1 := ⟨f - 1, by omega⟩
    obtain ⟨hstart, hitem, hread⟩ := h i List.mem_cons_self
    simp only [List.flatMap_cons, List.length_append, List.length_cons] at hf
    have hrest := ih (f := f) (fun d hd => h d (List.mem_cons_of_mem i hd)) (by omega)
    have hn := hread g f ((l.flatMap fun i => .blockEntry :: i.1) ++ r) (by omega)
    have hall := Reading.indentlessItems_item hstart hitem hn hrest
    simpa using hall

theorem readsEntry_items {l : List (List Token × Node)} (hne : l ≠ [])
    (h : ∀ i ∈ l, ReadsItem i.1 i.2) :
    ReadsEntry (l.flatMap fun i => .blockEntry :: i.1) (.seq none .seq (l.map Prod.snd)) := by
  cases l with
  | nil => exact absurd rfl hne
  | cons i l =>
    refine ⟨⟨_, _, rfl, by decide, by decide, by decide⟩, ?_⟩
    intro g f r hf hr
    obtain ⟨f, rfl⟩ : ∃ f', f = f' + 1 := ⟨f - 1, by omega⟩
    have hread := indentlessItems_items (g := g) (f := f) h hr (by omega)
    simp only [List.flatMap_cons, List.cons_append] at hread ⊢
    exact Reading.node_items hread

theorem readsEntry_emptySeq : ReadsEntry [.flowSeqStart, .flowSeqEnd] (.seq none .seq []) := by
  refine ⟨⟨_, _, rfl, by decide, by decide, by decide⟩, ?_⟩
  intro g f r hf _
  obtain ⟨f, rfl⟩ : ∃ f', f = f' + 2 := ⟨f - 2, by simp at hf; omega⟩
  exact Reading.node_emptySeq r

theorem ofTokens_map {es : List WrittenEntry} (h : ∀ e ∈ es, e.Reads)
    (ha : ((Node.map none .map (es.map WrittenEntry.entry)).anchors []).isSome = true) :
    Node.ofTokens (.blockMapStart :: (es.flatMap WrittenEntry.written ++ [.blockEnd])) none =
      .ok (some (.map none .map (es.map WrittenEntry.entry))) := by
  have hread := (readsItem_map h).2.2 ⟨defaultHandles, none⟩ _ [] (Nat.le_refl _)
  rw [List.append_nil] at hread
  have hfirst : Reading.firstDocument none
      (.blockMapStart :: (es.flatMap WrittenEntry.written ++ [.blockEnd])) =
        .ok (some (.map none .map (es.map WrittenEntry.entry)), []) := by
    simp only [Reading.firstDocument, hread, bind, Except.bind, pure, Except.pure]
  have hend : Reading.documentsEnd none [] = .ok () := rfl
  simp [Node.ofTokens, hfirst, hend, bind, Except.bind, pure, Except.pure, ha]

end RouteCompiler.Yaml
