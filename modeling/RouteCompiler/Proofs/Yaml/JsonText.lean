import RouteCompiler.Proofs.Yaml.Flow
import RouteCompiler.Proofs.Yaml.FlowGrammar

/-!
A JSON text in a spelling that all readers share, read as a YAML document: it has the value that it
spells.
-/

namespace RouteCompiler.Yaml

open Json (IsLayout Part Spells)

/-! ## Characters -/

theorem all_isAllowed_layout {l : List Char} (h : IsLayout l) : l.all isAllowed = true := by
  refine List.all_eq_true.2 fun c hc => ?_
  obtain rfl | rfl | rfl := h c hc <;> rfl

theorem all_isAllowed_quoted {cs : List Char} {text : Points} (h : Json.Quoted cs text) :
    cs.all isAllowed = true :=
  List.all_eq_true.2 fun c hc => (isAllowed_quoted h c hc).1

theorem all_isAllowed_of_spells {n : Nat} {w : List Char} {p : Part} (h : Spells n w p) :
    w.all isAllowed = true := by
  have hspaces (n : Nat) := all_isAllowed_layout (IsLayout.spaces n)
  induction h with
  | bare h =>
    have hall : bareChars.all isAllowed = true := by decide
    exact List.all_eq_true.2 fun c hc => List.all_eq_true.1 hall c (mem_bareChars_of_bare h c hc)
  | string h => simp [all_isAllowed_quoted h, isAllowed]
  | emptyArray hl | emptyObject hl => simp [all_isAllowed_layout hl, isAllowed]
  | array h ih | object h ih => simp [ih, isAllowed]
  | items hl hv hl' ht ihv iht => simp [all_isAllowed_layout hl, all_isAllowed_layout hl', ihv, iht]
  | members hl hk hn hl' hv hl'' ht ihv iht =>
    simp [all_isAllowed_layout hl, all_isAllowed_layout hl', all_isAllowed_layout hl'',
      all_isAllowed_quoted hk, hspaces, ihv, iht, isAllowed]
  | noMoreItems | noMoreMembers => rfl
  | moreItems h ih | moreMembers h ih => simp [ih, isAllowed]

/-! ## Tokens -/

/-- Wherever it stands, the text of the part comes to the tokens. -/
def Scans (w : List Char) (ts : List Token) : Part → Prop
  | .value _ => ∀ depth, Scan.ScansTo depth false w ts
  | .items _ | .moreItems _ | .moreMembers _ => ∀ depth, Scan.ScansTo (depth + 1) false w ts
  | .members _ => ∀ depth, Scan.ScansTo (depth + 1) true w ts

theorem exists_tokens {n : Nat} {w : List Char} {p : Part} (h : Spells n w p) :
    ∃ ts, TokensOf ts p ∧ Scans w ts p := by
  induction h with
  | bare h => exact ⟨_, .bare h, fun _ => .bare h⟩
  | string h => exact ⟨_, .string _, fun _ => .string h⟩
  | emptyArray hl =>
    exact ⟨_, .emptyArray, fun _ => .collection .seq (.blank hl)⟩
  | array h ih =>
    obtain ⟨ts, hts, hscan⟩ := ih
    exact ⟨_, .array hts, fun depth => .collection .seq (hscan depth).of_false⟩
  | emptyObject hl =>
    exact ⟨_, .emptyObject, fun _ => .collection .map (.blank hl)⟩
  | object h ih =>
    obtain ⟨ts, hts, hscan⟩ := ih
    exact ⟨_, .object hts, fun depth => .collection .map (hscan depth)⟩
  | items hl hv hl' ht ihv iht =>
    obtain ⟨ts, hts, hscan⟩ := ihv
    obtain ⟨us, hus, hmore⟩ := iht
    exact ⟨_, .items hts hus, fun depth =>
      .layout hl (.append (hscan _) hl' (hmore depth) ht.head?_moreItems)⟩
  | noMoreItems => exact ⟨_, .noMoreItems, fun _ => .nil⟩
  | moreItems h ih =>
    obtain ⟨ts, hts, hscan⟩ := ih
    exact ⟨_, .moreItems hts, fun depth => .comma (hscan depth).of_false⟩
  | members hl hk hn hl' hv hl'' ht ihv iht =>
    obtain ⟨ts, hts, hscan⟩ := ihv
    obtain ⟨us, hus, hmore⟩ := iht
    exact ⟨_, .members _ hts hus, fun depth => .layout hl (.member hk hn
      (.layout hl' (.append (hscan _) hl'' (hmore depth) ht.head?_moreMembers)))⟩
  | noMoreMembers => exact ⟨_, .noMoreMembers, fun _ => .nil⟩
  | moreMembers h ih =>
    obtain ⟨ts, hts, hscan⟩ := ih
    exact ⟨_, .moreMembers hts, fun depth => .comma (hscan depth)⟩

/-! ## Documents -/

theorem Scan.start_inside (cs : List Char) : (Scan.start cs).Inside [] 0 true cs :=
  ⟨Cursor.start cs, [none], true, rfl, by simp [Scan.Optional], rfl, rfl, fun e => e⟩

theorem scan_of_scansTo {l w l' : List Char} {ts : List Token} (hl : IsLayout l) (hl' : IsLayout l')
    (h : Scan.ScansTo 0 false w ts) (hw : w.all isAllowed = true) :
    scan (l ++ (w ++ l')) = (ts.toArray, none) := by
  have hstart := (Scan.start_inside (l ++ (w ++ (l' ++ [])))).weaken
  obtain ⟨u, l'', hrun, hl'', hu⟩ := h _ [] l l' [] hl hl' (.inl rfl) hstart
  rw [List.append_nil] at hrun
  rw [scan, if_pos, hrun, hu.run_end hl'', List.nil_append]
  rw [List.all_append, List.all_append, all_isAllowed_layout hl, all_isAllowed_layout hl', hw]
  rfl

/-- A text that spells a value, with layout around it, holds that value as a document. -/
theorem Value.read_of_spells {n : Nat} {l w l' : List Char} {v : Json} (hl : IsLayout l)
    (h : Spells n w (.value v)) (hl' : IsLayout l') :
    Value.read (String.ofList (l ++ (w ++ l'))) = .ok (Value.ofJson v) := by
  obtain ⟨ts, hts, hscan⟩ := exists_tokens h
  obtain ⟨n, hnode, hmean⟩ := ofTokens_of_tokensOf hts
  rw [Value.read, String.toList_ofList,
    scan_of_scansTo hl hl' (hscan 0) (all_isAllowed_of_spells h)]
  simp only [hnode]
  exact Value.ofNode_of_means hmean

/-- A tabulator between the opening brace of a mapping and its first key is refused, whatever
comes behind it. -/
theorem Value.read_tab (r : List Char) :
    Value.read (String.ofList ('\x7b' :: '\t' :: r)) = .error .malformed := by
  have hrun : ∃ n, (Scan.start ('\x7b' :: '\t' :: r)).run =
      (([.flowMapStart].take n).toArray, some .malformed) := by
    have hopen (u : Scan) (hu : u.Inside [] 0 true ('\x7b' :: '\t' :: r)) :
        ∃ t, u.token '\x7b' ('\t' :: r) = .ok t ∧ t.Inside [.flowMapStart] 1 true ('\t' :: r) := by
      rw [Scan.Brackets.map.token_first]
      exact hu.openFlow
    obtain ⟨t, hrun, ht⟩ := (Scan.start_inside ('\x7b' :: '\t' :: r)).run (l := []) .nil
      (Scan.Brackets.map.tokenAhead_first _) (Nat.le_refl _) hopen
    obtain ⟨n, hn⟩ := ht.run_tab
    exact ⟨n, hrun.trans hn⟩
  -- with the brace as its only token, or with none, the text ends before it holds a document
  have hnode (n : Nat) :
      Node.ofTokens ([Token.flowMapStart].take n) (some .malformed) = .error .malformed := by
    cases n with
    | zero => rfl
    | succ n =>
      rw [List.take_succ_cons, List.take_nil]
      simp [Node.ofTokens, namesFit, Reading.firstDocument, Reading.node, Reading.properties,
        Reading.flowEntries, Reading.refuse, bind, Except.bind]
  rw [Value.read, String.toList_ofList]
  by_cases hallowed : ('\x7b' :: '\t' :: r).all isAllowed = true
  · obtain ⟨n, hn⟩ := hrun
    rw [scan, if_pos hallowed, hn]
    simp only [hnode]
  · rw [scan, if_neg hallowed]
    rfl

end RouteCompiler.Yaml
