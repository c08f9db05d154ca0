import RouteCompiler.Proofs.Json.Spelling
import RouteCompiler.Proofs.Yaml.Meaning
import RouteCompiler.Proofs.Yaml.Number

/-!
The tokens of a JSON value come to a node that stands for the value. Members of an object may
repeat a name: the last of them wins in both kinds of document, at the place of the first.
-/

namespace RouteCompiler.Yaml

open Json (Part Bare)

/-- The tokens that a part of a JSON text comes to. -/
inductive TokensOf : List Token → Part → Prop
  | bare {w : List Char} {v : Json} (h : Bare w v) :
    TokensOf [.scalar (w.map .char) true] (.value v)
  | string (s : Points) : TokensOf [.scalar s false] (.value (.str s))
  | emptyArray : TokensOf [.flowSeqStart, .flowSeqEnd] (.value (.arr []))
  | array {ts : List Token} {vs : List Json} (h : TokensOf ts (.items vs)) :
    TokensOf (.flowSeqStart :: (ts ++ [.flowSeqEnd])) (.value (.arr vs))
  | emptyObject : TokensOf [.flowMapStart, .flowMapEnd] (.value (.obj []))
  | object {ts : List Token} {ms : List (Points × Json)} (h : TokensOf ts (.members ms)) :
    TokensOf (.flowMapStart :: (ts ++ [.flowMapEnd])) (.value (Json.ofMembers ms))
  | items {ts us : List Token} {v : Json} {vs : List Json} (hv : TokensOf ts (.value v))
    (ht : TokensOf us (.moreItems vs)) : TokensOf (ts ++ us) (.items (v :: vs))
  | noMoreItems : TokensOf [] (.moreItems [])
  | moreItems {ts : List Token} {vs : List Json} (h : TokensOf ts (.items vs)) :
    TokensOf (.flowEntry :: ts) (.moreItems vs)
  | members (key : Points) {ts us : List Token} {v : Json} {ms : List (Points × Json)}
    (hv : TokensOf ts (.value v)) (ht : TokensOf us (.moreMembers ms)) :
    TokensOf ([.key, .scalar key false, .value] ++ (ts ++ us)) (.members ((key, v) :: ms))
  | noMoreMembers : TokensOf [] (.moreMembers [])
  | moreMembers {ts : List Token} {ms : List (Points × Json)} (h : TokensOf ts (.members ms)) :
    TokensOf (.flowEntry :: ts) (.moreMembers ms)

/-! ## Repeated names -/

theorem putEntry_ofJsonMembers (k : Points) (v : Json) (ms : List (Points × Json)) :
    Value.putEntry (.text k) (Value.ofJson v) (Value.ofJsonMembers ms) =
      Value.ofJsonMembers (Json.putMember k v ms) := by
  induction ms with
  | nil => rfl
  | cons m ms ih =>
    obtain ⟨k', v'⟩ := m
    simp only [Value.ofJsonMembers, Value.putEntry, Node.sameKey_text, beq_iff_eq, Json.putMember]
    split
    · rfl
    · rw [ih, Value.ofJsonMembers]

/-- Objects and mappings resolve repeated names alike. -/
theorem ofJson_ofMembers (ms : List (Points × Json)) : Value.ofJson (Json.ofMembers ms) =
    .map (Value.distinctEntries (Value.ofJsonMembers ms)) := by
  have hfold (acc : List (Points × Json)) :
      (Value.ofJsonMembers ms).foldl (fun acc e => Value.putEntry e.1 e.2 acc)
        (Value.ofJsonMembers acc) =
      Value.ofJsonMembers (ms.foldl (fun acc m => Json.putMember m.1 m.2 acc) acc) := by
    induction ms generalizing acc with
    | nil => rfl
    | cons m ms ih =>
      rw [Value.ofJsonMembers, List.foldl_cons, List.foldl_cons, putEntry_ofJsonMembers]
      exact ih _
  rw [Json.ofMembers, Value.ofJson, ← hfold []]
  rfl

/-! ## Constructs -/

/-- The tokens go on with a node of a flow collection. -/
def StartsFlowNode (ts : List Token) : Prop :=
  ∃ t r, ts = t :: r ∧ (t = .flowSeqStart ∨ t = .flowMapStart ∨ ∃ s plain, t = .scalar s plain)

namespace Reading

variable {g : Reading} {f : Nat} {ts r r' : List Token}

theorem node_flowSeq {ns : List Node} (block indentless : Bool)
    (h : g.flowItems true f ts = .ok (ns, r)) :
    g.node block indentless (f + 1) (.flowSeqStart :: ts) = .ok (.seq none .seq ns, r) := by
  simp [node, properties, collectionTag, bind, Except.bind, pure, Except.pure, h]

theorem node_flowMap {es : List (Node × Node)} (block indentless : Bool)
    (h : g.flowEntries true f ts = .ok (es, r)) :
    g.node block indentless (f + 1) (.flowMapStart :: ts) = .ok (.map none .map es, r) := by
  simp [node, properties, collectionTag, bind, Except.bind, pure, Except.pure, h]

theorem flowItems_end (first : Bool) (r : List Token) :
    g.flowItems first (f + 1) (.flowSeqEnd :: r) = .ok ([], r) := by
  simp [flowItems]

theorem flowItems_item {n : Node} {ns : List Node} (hts : StartsFlowNode ts)
    (hn : g.node false false f (ts ++ r) = .ok (n, r)) (h : g.flowItems false f r = .ok (ns, r')) :
    g.flowItems true (f + 1) (ts ++ r) = .ok (n :: ns, r') := by
  obtain ⟨t, ts, rfl, ht⟩ := hts
  rw [List.cons_append] at hn ⊢
  obtain rfl | rfl | ⟨s, plain, rfl⟩ := ht <;>
    simp [flowItems, hn, h, bind, Except.bind, pure, Except.pure]

/-- Behind a comma comes what could also come first. -/
theorem flowItems_comma (hts : StartsFlowNode ts) :
    g.flowItems false f (.flowEntry :: ts) = g.flowItems true f ts := by
  obtain ⟨t, ts, rfl, ht⟩ := hts
  cases f with
  | zero => simp [flowItems]
  | succ f =>
    obtain rfl | rfl | ⟨s, plain, rfl⟩ := ht <;>
      simp [flowItems, bind, Except.bind, pure, Except.pure]

theorem flowEntries_end (first : Bool) (r : List Token) :
    g.flowEntries first (f + 1) (.flowMapEnd :: r) = .ok ([], r) := by
  simp [flowEntries]

theorem flowEntries_entry {key : Points} {v : Node} {es : List (Node × Node)}
    (hts : StartsFlowNode ts) (hv : g.node false false (f + 1) (ts ++ r) = .ok (v, r))
    (h : g.flowEntries false (f + 1) r = .ok (es, r')) :
    g.flowEntries true (f + 2) (.key :: .scalar key false :: .value :: (ts ++ r)) =
      .ok ((Node.text key, v) :: es, r') := by
  have hk := node_scalar false false false key (.value :: (ts ++ r)) (g := g) (f := f)
  obtain ⟨t, ts, rfl, ht⟩ := hts
  rw [List.cons_append] at hv hk ⊢
  obtain rfl | rfl | ⟨s, plain, rfl⟩ := ht <;>
    simp [flowEntries, hk, hv, h, bind, Except.bind, pure, Except.pure, Node.text]

theorem flowEntries_comma :
    g.flowEntries false f (.flowEntry :: .key :: ts) = g.flowEntries true f (.key :: ts) := by
  cases f with
  | zero => simp [flowEntries]
  | succ f => simp [flowEntries, bind, Except.bind, pure, Except.pure]

end Reading

/-! ## Parts -/

/-- The tokens are read as the node. -/
def ReadsFlow (ts : List Token) (n : Node) : Prop :=
  StartsFlowNode ts ∧ ∀ (g : Reading) (block indentless : Bool) (f : Nat) (r : List Token),
    ts.length ≤ f → g.node block indentless f (ts ++ r) = .ok (n, r)

def ReadsItems (first : Bool) (ts : List Token) (ns : List Node) : Prop :=
  ∀ (g : Reading) (f : Nat) (r : List Token), ts.length + 1 ≤ f →
    g.flowItems first f (ts ++ .flowSeqEnd :: r) = .ok (ns, r)

def ReadsMembers (first : Bool) (ts : List Token) (es : List (Node × Node)) : Prop :=
  ∀ (g : Reading) (f : Nat) (r : List Token), ts.length + 1 ≤ f →
    g.flowEntries first f (ts ++ .flowMapEnd :: r) = .ok (es, r)

/-- Nodes and the values they stand for, which are those of the JSON values. -/
structure ItemsMean (vs : List Json) (is : List (Node × Value)) : Prop where
  values : Value.ofJsonItems vs = is.map Prod.snd
  means : ∀ i ∈ is, i.1.Means i.2

structure MembersMean (ms : List (Points × Json)) (es : List (Points × Node × Value)) : Prop where
  values : Value.ofJsonMembers ms = es.map fun e => (.text e.1, e.2.2)
  means : ∀ e ∈ es, e.2.1.Means e.2.2

/-- The tokens are read as nodes that stand for the part. -/
def Meaning (ts : List Token) : Part → Prop
  | .value v => ∃ n, ReadsFlow ts n ∧ n.Means (Value.ofJson v)
  | .items vs => StartsFlowNode ts ∧
    ∃ is, ReadsItems true ts (is.map Prod.fst) ∧ ItemsMean vs is
  | .moreItems vs => ∃ is, ReadsItems false ts (is.map Prod.fst) ∧ ItemsMean vs is
  | .members ms => ts.head? = some .key ∧
    ∃ es, ReadsMembers true ts (es.map fun e => (Node.text e.1, e.2.1)) ∧ MembersMean ms es
  | .moreMembers ms =>
    ∃ es, ReadsMembers false ts (es.map fun e => (Node.text e.1, e.2.1)) ∧ MembersMean ms es

theorem StartsFlowNode.append {ts : List Token} (h : StartsFlowNode ts) (us : List Token) :
    StartsFlowNode (ts ++ us) := by
  obtain ⟨t, r, rfl, ht⟩ := h
  exact ⟨t, r ++ us, rfl, ht⟩

theorem readsFlow_scalar (s : Points) (plain : Bool) : ReadsFlow [.scalar s plain]
    (.scalar none (if plain then Tag.ofPlain s.toList else .str) s) := by
  refine ⟨⟨_, _, rfl, .inr (.inr ⟨s, plain, rfl⟩)⟩, ?_⟩
  intro g block indentless f r hf
  obtain ⟨f, rfl⟩ : ∃ f', f = f' + 1 := ⟨f - 1, by simp at hf; omega⟩
  exact Reading.node_scalar block indentless plain s r

theorem readsFlow_seq {ts : List Token} {ns : List Node} (h : ReadsItems true ts ns) :
    ReadsFlow (.flowSeqStart :: (ts ++ [.flowSeqEnd])) (.seq none .seq ns) := by
  refine ⟨⟨_, _, rfl, .inl rfl⟩, ?_⟩
  intro g block indentless f r hf
  simp only [List.length_cons, List.length_append, List.length_nil] at hf
  obtain ⟨f, rfl⟩ : ∃ f', f = f' + 1 := ⟨f - 1, by omega⟩
  rw [List.cons_append, List.append_assoc]
  exact Reading.node_flowSeq block indentless (h g f r (by omega))

theorem readsFlow_map {ts : List Token} {es : List (Node × Node)} (h : ReadsMembers true ts es) :
    ReadsFlow (.flowMapStart :: (ts ++ [.flowMapEnd])) (.map none .map es) := by
  refine ⟨⟨_, _, rfl, .inr (.inl rfl)⟩, ?_⟩
  intro g block indentless f r hf
  simp only [List.length_cons, List.length_append, List.length_nil] at hf
  obtain ⟨f, rfl⟩ : ∃ f', f = f' + 1 := ⟨f - 1, by omega⟩
  rw [List.cons_append, List.append_assoc]
  exact Reading.node_flowMap block indentless (h g f r (by omega))

theorem readsItems_nil (first : Bool) : ReadsItems first [] [] := by
  intro g f r hf
  obtain ⟨f, rfl⟩ : ∃ f', f = f' + 1 := ⟨f - 1, by omega⟩
  exact Reading.flowItems_end first r

theorem readsItems_cons {ts us : List Token} {n : Node} {ns : List Node} (h : ReadsFlow ts n)
    (hus : ReadsItems false us ns) : ReadsItems true (ts ++ us) (n :: ns) := by
  intro g f r hf
  obtain ⟨f, rfl⟩ : ∃ f', f = f' + 1 := ⟨f - 1, by omega⟩
  have hpos : 0 < ts.length := by
    obtain ⟨t, ts, rfl, -⟩ := h.1
    exact Nat.succ_pos _
  rw [List.length_append] at hf
  rw [List.append_assoc]
  exact Reading.flowItems_item h.1 (h.2 g false false f _ (by omega)) (hus g f r (by omega))

theorem readsMembers_nil (first : Bool) : ReadsMembers first [] [] := by
  intro g f r hf
  obtain ⟨f, rfl⟩ : ∃ f', f = f' + 1 := ⟨f - 1, by omega⟩
  exact Reading.flowEntries_end first r

theorem readsMembers_cons {ts us : List Token} {n : Node} {es : List (Node × Node)} (key : Points)
    (h : ReadsFlow ts n) (hus : ReadsMembers false us es) :
    ReadsMembers true ([.key, .scalar key false, .value] ++ (ts ++ us))
      ((Node.text key, n) :: es) := by
  intro g f r hf
  simp only [List.length_append, List.length_cons, List.length_nil] at hf
  obtain ⟨f, rfl⟩ : ∃ f', f = f' + 2 := ⟨f - 2, by omega⟩
  simp only [List.cons_append, List.nil_append, List.append_assoc]
  exact Reading.flowEntries_entry h.1 (h.2 g false false (f + 1) _ (by omega))
    (hus g (f + 1) r (by omega))

theorem ItemsMean.nil : ItemsMean [] [] := ⟨rfl, by simp⟩

theorem ItemsMean.cons {v : Json} {vs : List Json} {n : Node} {is : List (Node × Value)}
    (hn : n.Means (Value.ofJson v)) (h : ItemsMean vs is) :
    ItemsMean (v :: vs) ((n, Value.ofJson v) :: is) := by
  refine ⟨by rw [Value.ofJsonItems, h.values]; rfl, fun i hi => ?_⟩
  obtain rfl | hi := List.mem_cons.1 hi
  · exact hn
  · exact h.means i hi

theorem MembersMean.nil : MembersMean [] [] := ⟨rfl, by simp⟩

theorem MembersMean.cons {key : Points} {v : Json} {ms : List (Points × Json)} {n : Node}
    {es : List (Points × Node × Value)} (hn : n.Means (Value.ofJson v)) (h : MembersMean ms es) :
    MembersMean ((key, v) :: ms) ((key, n, Value.ofJson v) :: es) := by
  refine ⟨by rw [Value.ofJsonMembers, h.values]; rfl, fun e he => ?_⟩
  obtain rfl | he := List.mem_cons.1 he
  · exact hn
  · exact h.means e he

theorem meaning_array {ts : List Token} {vs : List Json} {is : List (Node × Value)}
    (h : ReadsItems true ts (is.map Prod.fst)) (hm : ItemsMean vs is) :
    Meaning (.flowSeqStart :: (ts ++ [.flowSeqEnd])) (.value (.arr vs)) := by
  refine ⟨_, readsFlow_seq h, ?_⟩
  rw [Value.ofJson, hm.values]
  exact .seq is hm.means

theorem meaning_object {ts : List Token} {ms : List (Points × Json)}
    {es : List (Points × Node × Value)}
    (h : ReadsMembers true ts (es.map fun e => (Node.text e.1, e.2.1))) (hm : MembersMean ms es) :
    Meaning (.flowMapStart :: (ts ++ [.flowMapEnd])) (.value (Json.ofMembers ms)) := by
  refine ⟨_, readsFlow_map h, ?_⟩
  rw [ofJson_ofMembers, hm.values]
  exact .map es hm.means

/-- Every part is read as nodes that stand for it. -/
theorem TokensOf.meaning {ts : List Token} {p : Part} (h : TokensOf ts p) : Meaning ts p := by
  induction h with
  | @bare w v h =>
    refine ⟨_, readsFlow_scalar (w.map .char) true, .scalar _ _ _ ?_⟩
    rw [if_pos rfl, Points.toList_map_char]
    exact Scalar.value_ofPlain h
  | string s => exact ⟨_, readsFlow_scalar s false, .text s⟩
  | emptyArray => exact meaning_array (readsItems_nil true) .nil
  | array h ih =>
    obtain ⟨-, is, hread, hmean⟩ := ih
    exact meaning_array hread hmean
  | emptyObject => exact meaning_object (readsMembers_nil true) .nil
  | object h ih =>
    obtain ⟨-, es, hread, hmean⟩ := ih
    exact meaning_object hread hmean
  | items hv ht ihv iht =>
    obtain ⟨n, hn, hmean⟩ := ihv
    obtain ⟨is, hread, hmeans⟩ := iht
    exact ⟨hn.1.append _, (n, _) :: is, readsItems_cons hn hread, hmeans.cons hmean⟩
  | noMoreItems => exact ⟨[], readsItems_nil false, .nil⟩
  | @moreItems ts vs h ih =>
    obtain ⟨hstart, is, hread, hmean⟩ := ih
    refine ⟨is, fun g f r hf => ?_, hmean⟩
    rw [List.cons_append, Reading.flowItems_comma (hstart.append _)]
    exact hread g f r (Nat.le_trans (Nat.le_succ _) hf)
  | members key hv ht ihv iht =>
    obtain ⟨n, hn, hmean⟩ := ihv
    obtain ⟨es, hread, hmeans⟩ := iht
    exact ⟨rfl, (key, n, _) :: es, readsMembers_cons key hn hread, hmeans.cons hmean⟩
  | noMoreMembers => exact ⟨[], readsMembers_nil false, .nil⟩
  | @moreMembers ts ms h ih =>
    obtain ⟨hstart, es, hread, hmean⟩ := ih
    obtain ⟨us, rfl⟩ : ∃ us, ts = .key :: us := by
      cases ts with
      | nil => cases hstart
      | cons t us =>
        cases hstart
        exact ⟨us, rfl⟩
    refine ⟨es, fun g f r hf => ?_, hmean⟩
    rw [List.cons_append, List.cons_append, Reading.flowEntries_comma]
    exact hread g f r (Nat.le_trans (Nat.le_succ _) hf)

theorem ofTokens_of_tokensOf {ts : List Token} {v : Json} (h : TokensOf ts (.value v)) :
    ∃ n, Node.ofTokens ts none = .ok (some n) ∧ n.Means (Value.ofJson v) := by
  obtain ⟨n, ⟨⟨t, r, rfl, ht⟩, hread⟩, hmean⟩ := h.meaning
  have hn := hread ⟨defaultHandles, none⟩ true false (2 * (t :: r).length + 2) [] (by omega)
  rw [List.append_nil] at hn
  have hfirst : Reading.firstDocument none (t :: r) = .ok (some n, []) := by
    generalize hf : 2 * (t :: r).length + 2 = f at hn
    obtain rfl | rfl | ⟨s, plain, rfl⟩ := ht <;>
      simp only [Reading.firstDocument, hf, hn, bind, Except.bind, pure, Except.pure]
  have hend : Reading.documentsEnd none [] = .ok () := rfl
  refine ⟨n, ?_, hmean⟩
  simp [Node.ofTokens, hfirst, hend, hmean.anchors [], bind, Except.bind, pure, Except.pure]

end RouteCompiler.Yaml
