import RouteCompiler.Proofs.Yaml.Ascii
import RouteCompiler.Proofs.Yaml.Meaning
import RouteCompiler.Route.Document

/-!
A route document reads back as the description of its flow: its text comes to the tokens of its
mapping, the tokens to one node, and the node to the value that describes the flow.
-/

namespace RouteCompiler

open Yaml
open Yaml.Written (entry spaces)
open Yaml.Scan (entryTokens scalarToken opening around)

/-! ## Descriptions -/

/-- An element is described by its kind and what it has been made with. -/
def Element.description : Element → Value
  | .endpoint uri => .map [(.text "kind", .text "endpoint"), (.text "uri", .text uri)]
  | .filter expression =>
    .map [(.text "kind", .text "filter"), (.text "expression", .text expression)]
  | .log message loggingLevel =>
    .map [(.text "kind", .text "log"), (.text "message", .text message),
      (.text "loggingLevel", .text loggingLevel)]

/-- A flow is described by its name, unless that is missing or empty, and its elements in order. -/
def Flow.description (f : Flow) : Value :=
  let steps : Value × Value := (.text "steps", .seq (f.steps.map Element.description))
  let entries := match f.name with
    | none => [steps]
    | some name => if name = "" then [steps] else [(.text "name", .text name), steps]
  .map [(.text "flows", .seq [.map entries])]

/-! ## What is written, by entry -/

def textWritten (e : String × Points) : WrittenEntry := ⟨e.1, [scalarToken e.2], Node.text e.2⟩

namespace Element

def fieldNames : List String := ["kind", "uri", "expression", "message", "loggingLevel"]

theorem mem_fieldNames (e : Element) : ∀ p ∈ e.fields, p.1 ∈ fieldNames := by
  cases e <;> simp [fields, fieldNames]

theorem isKey_fields (e : Element) : ∀ p ∈ e.fields, IsKey p.1.toList := by
  have hall : fieldNames.all (isKeyText ·.toList) = true := by decide
  intro p hp
  exact isKey_of_isKeyText (List.all_eq_true.1 hall p.1 (e.mem_fieldNames p hp))

theorem ofPlain_fields (e : Element) : ∀ p ∈ e.fields, Tag.ofPlain p.1.toList = .str := by
  have hall : fieldNames.all (Tag.ofPlain ·.toList == .str) = true := by decide
  intro p hp
  exact eq_of_beq (List.all_eq_true.1 hall p.1 (e.mem_fieldNames p hp))

/-- The lines of an element, but for the mark in front of the first. -/
def lines (e : Element) : List Char :=
  match e.fields with
  | [] => []
  | d :: ds => entry 4 d.1 d.2 ++ ds.flatMap fun d => spaces 4 ++ entry 4 d.1 d.2

theorem itemEntries_fields (e : Element) :
    Flow.itemEntries 2 e.fields = spaces 2 ++ '-' :: ' ' :: e.lines := by
  cases e <;> simp [Flow.itemEntries, fields, lines]

def tokens (e : Element) : List Token :=
  .blockMapStart :: ((e.fields.map textWritten).flatMap WrittenEntry.written ++ [.blockEnd])

def itemTokens (e : Element) : List Token := .blockEntry :: e.tokens

def node (e : Element) : Node := .map none .map ((e.fields.map textWritten).map WrittenEntry.entry)

end Element

namespace Flow

def stepsTokens (steps : List Element) : List Token :=
  if steps.isEmpty then [.flowSeqStart, .flowSeqEnd]
  else steps.flatMap Element.itemTokens

def stepsWritten (steps : List Element) : WrittenEntry :=
  ⟨"steps", stepsTokens steps, .seq none .seq (steps.map Element.node)⟩

def entriesWritten (f : Flow) : List WrittenEntry :=
  (f.shownName.toList.map fun (n : String) => textWritten ("name", n)) ++ [stepsWritten f.steps]

def flowsWritten (f : Flow) : WrittenEntry :=
  ⟨"flows", .blockEntry :: .blockMapStart ::
      (f.entriesWritten.flatMap WrittenEntry.written ++ [.blockEnd]),
    .seq none .seq [.map none .map (f.entriesWritten.map WrittenEntry.entry)]⟩

def tokens (f : Flow) : List Token :=
  .blockMapStart :: ([f.flowsWritten].flatMap WrittenEntry.written ++ [.blockEnd])

/-! ## From text to tokens -/

theorem written_textWritten (es : List (String × Points)) :
    (es.map textWritten).flatMap WrittenEntry.written = es.flatMap entryTokens := by
  rw [List.flatMap_map]
  rfl

/-- The lines of an element are read, down to the line that comes behind them. -/
theorem ready_lines {e : Element} {s : Scan} {ts : List Token} {n : Nat} {rest : List Char}
    (h : s.Ready ts 2 [0, -1] true 2 ('-' :: ' ' :: (e.lines ++ (spaces n ++ rest)))) (hn : n ≤ 4)
    (ht : TokenAhead rest) (hsep : atSeparator (spaces n ++ rest) = false) :
    ∃ t : Scan, s.run = t.run ∧
      t.Stands (ts ++ .blockEntry :: .blockMapStart :: e.fields.flatMap entryTokens) 4 [2, 0, -1]
        true n rest := by
  obtain ⟨d, ds, hfields⟩ : ∃ d ds, e.fields = d :: ds := by cases e <;> exact ⟨_, _, rfl⟩
  have hkeys := e.isKey_fields
  have hlines : e.lines ++ (spaces n ++ rest) = entry 4 d.1 d.2 ++
      (ds.flatMap (fun d => spaces 4 ++ entry 4 d.1 d.2) ++ (spaces n ++ rest)) := by
    simp only [Element.lines, hfields, List.append_assoc]
  rw [hlines] at h
  rw [hfields] at hkeys ⊢
  obtain ⟨t, hrun, hs⟩ := h.item (Scan.tokenAhead_entry (hkeys d List.mem_cons_self) _ _)
  obtain ⟨u, hrun', hu⟩ := (hs.ready (by omega)).entries hkeys (by omega) (by omega) (by decide)
    hn ht hsep
  refine ⟨u, by rw [hrun, hrun'], ?_⟩
  simpa [opening, around] using hu

theorem run_items {es : List Element} {e : Element} {s : Scan} {ts : List Token}
    (h : s.Ready ts 2 [0, -1] true 2 ('-' :: ' ' :: (e.lines ++
      es.flatMap fun e => itemEntries 2 e.fields))) :
    s.run = ((ts ++ (e :: es).flatMap Element.itemTokens ++
      [Token.blockEnd, .blockEnd]).toArray, none) := by
  induction es generalizing e s ts with
  | nil =>
    have hend : TokenAhead [] := .inl rfl
    obtain ⟨t, hrun, hs⟩ := ready_lines (n := 0) h (by omega) hend rfl
    rw [hrun, hs.run_end (by simp)]
    simp [Element.itemTokens, Element.tokens, written_textWritten]
  | cons d es ih =>
    rw [List.flatMap_cons, Element.itemEntries_fields, List.append_assoc] at h
    obtain ⟨t, hrun, hs⟩ := ready_lines h (by omega)
      (.cons rfl (by decide) (by decide) _) (atSeparator_spaces (by omega) _)
    -- the mark of the next element is not as deep as the entries of this one
    rw [hrun, ih (hs.ready_close (by omega) (by omega))]
    simp [Element.itemTokens, Element.tokens, written_textWritten]

theorem isKey_flows : IsKey "flows".toList := isKey_of_isKeyText (by decide)

theorem isKey_name : IsKey "name".toList := isKey_of_isKeyText (by decide)

theorem isKey_steps : IsKey "steps".toList := isKey_of_isKeyText (by decide)

theorem toList_steps : "steps".toList = ['s', 't', 'e', 'p', 's'] := by rw [String.toList_ofList]

theorem stepsText_nil : stepsText [] = "steps".toList ++ ':' :: ' ' :: '[' :: ']' :: ['\n'] := by
  simp only [stepsText, List.isEmpty_nil, if_true]
  rw [String.toList_ofList, toList_steps]
  rfl

theorem stepsText_cons (e : Element) (es : List Element) : stepsText (e :: es) =
    "steps".toList ++ ':' :: '\n' :: (spaces 2 ++ '-' :: ' ' :: (e.lines ++
      es.flatMap fun e => itemEntries 2 e.fields)) := by
  simp only [stepsText, List.isEmpty_cons, Bool.false_eq_true, if_false, List.flatMap_cons,
    Element.itemEntries_fields]
  rw [String.toList_ofList, toList_steps]
  simp

/-- The steps come last in a document. -/
theorem run_steps {steps : List Element} {s : Scan} {ts : List Token} {indent : Int}
    {outer : List Int} (h : s.Ready ts indent outer true 2 (stepsText steps)) (hi : indent ≤ 2)
    (ho : around indent 2 outer = [0, -1]) :
    s.run = ((ts ++ opening indent 2 ++ (stepsWritten steps).written ++
      [Token.blockEnd, .blockEnd]).toArray, none) := by
  cases steps with
  | nil =>
    rw [stepsText_nil] at h
    obtain ⟨t, c, hrun, hc, ht⟩ := h.key_space isKey_steps hi
      (.cons rfl (by decide) (by decide) _)
    have hend : TokenAhead [] := .inl rfl
    obtain ⟨u, hrun', hu⟩ := (ht.ready (by omega)).emptySeq (n := 0) hend
    rw [hrun, hrun', hu.run_end (by simp [ho])]
    simp [stepsWritten, stepsTokens, WrittenEntry.written, Points.ofString, ho]
  | cons e es =>
    rw [stepsText_cons] at h
    obtain ⟨t, hrun, ht⟩ := h.key_line isKey_steps hi (.cons rfl (by decide) (by decide) _)
    rw [ho] at ht
    rw [hrun, run_items (ht.ready (by omega))]
    simp [stepsWritten, stepsTokens, WrittenEntry.written, Points.ofString]

/-- The lines of the mapping that describes the flow. -/
def lines (f : Flow) : List Char :=
  match f.shownName with
  | some n => entry 2 "name" n ++ (spaces 2 ++ stepsText f.steps)
  | none => stepsText f.steps

theorem renderChars_eq (f : Flow) :
    f.renderChars = "flows".toList ++ ':' :: '\n' :: (spaces 0 ++ '-' :: ' ' :: f.lines) := by
  have hflows : "flows".toList = ['f', 'l', 'o', 'w', 's'] := by rw [String.toList_ofList]
  unfold renderChars lines
  rw [String.toList_ofList, hflows]
  cases f.shownName <;> simp [spaces]

theorem tokenAhead_stepsText (steps : List Element) : TokenAhead (stepsText steps) := by
  cases steps with
  | nil => exact stepsText_nil ▸ Scan.tokenAhead_key isKey_steps _
  | cons e es => exact stepsText_cons e es ▸ Scan.tokenAhead_key isKey_steps _

theorem tokenAhead_lines (f : Flow) : TokenAhead f.lines := by
  rw [lines]
  split
  · exact Scan.tokenAhead_entry isKey_name _ _
  · exact tokenAhead_stepsText f.steps

theorem run_lines {f : Flow} {s : Scan} {ts : List Token}
    (h : s.Ready ts 0 [-1] true 2 f.lines) :
    s.run = ((ts ++ .blockMapStart :: f.entriesWritten.flatMap WrittenEntry.written ++
      [Token.blockEnd, .blockEnd]).toArray, none) := by
  rw [lines] at h
  rw [entriesWritten]
  split at h
  · rename_i n hn
    obtain ⟨t, hrun, ht⟩ := h.entry (e := ("name", n)) isKey_name (by omega) (by decide)
      (Nat.le_refl 2) (tokenAhead_stepsText f.steps) (atSeparator_spaces (by omega) _)
    rw [hrun, run_steps (ht.ready (by omega)) (by omega) rfl, hn]
    simp [opening, entryTokens, textWritten, WrittenEntry.written]
  · rename_i hn
    rw [run_steps h (by omega) rfl, hn]
    simp [opening]

theorem run_renderChars (f : Flow) :
    (Scan.start f.renderChars).run = (f.tokens.toArray, none) := by
  have hstart : (Scan.start f.renderChars).Stands [] (-1) [] true 0 f.renderChars := by
    refine Scan.stands_spaces (n := 0) (k := Cursor.start f.renderChars) rfl ?_
    rw [renderChars_eq]
    exact Scan.tokenAhead_key isKey_flows _
  have hready := hstart.ready (by omega)
  rw [renderChars_eq] at hready
  obtain ⟨t, hrun, ht⟩ := hready.key_line isKey_flows (by omega)
    (.cons rfl (by decide) (by decide) _)
  obtain ⟨u, hrun', hu⟩ := (ht.ready (by omega)).item f.tokenAhead_lines
  rw [renderChars_eq, hrun, hrun', run_lines (hu.ready (by omega))]
  simp [tokens, flowsWritten, WrittenEntry.written, opening, Points.ofString]

/-! ## Characters -/

theorem isPlainText_key {key : List Char} (h : IsKey key) : IsPlainText key := by
  intro c hc
  simp [isPlainAscii, isShownAscii_of_isAlpha (h.letters c hc)]

theorem isPlainText_itemEntries (e : Element) : IsPlainText (itemEntries 2 e.fields) := by
  have hentry : ∀ p ∈ e.fields, IsPlainText (entry 4 p.1 p.2) := fun p hp =>
    isPlainText_entry 4 (isPlainText_key (e.isKey_fields p hp)) p.2
  rw [e.itemEntries_fields, Element.lines]
  refine (IsPlainText.spaces 2).append (.cons rfl (.cons rfl ?_))
  cases hf : e.fields with
  | nil => exact fun _ h => by cases h
  | cons d ds =>
    rw [hf] at hentry
    refine (hentry d List.mem_cons_self).append (.flatMap fun p hp => ?_)
    exact (IsPlainText.spaces 4).append (hentry p (List.mem_cons_of_mem d hp))

theorem isPlainText_stepsText (steps : List Element) : IsPlainText (stepsText steps) := by
  have hend : IsPlainText ['\n'] := .cons rfl fun _ h => by cases h
  have hkey := isPlainText_key isKey_steps
  cases steps with
  | nil =>
    rw [stepsText_nil]
    exact hkey.append (.cons rfl (.cons rfl (.cons rfl (.cons rfl hend))))
  | cons e es =>
    have hitems : IsPlainText ((e :: es).flatMap fun e => itemEntries 2 e.fields) :=
      .flatMap fun d _ => isPlainText_itemEntries d
    rw [List.flatMap_cons, Element.itemEntries_fields, List.append_assoc] at hitems
    rw [stepsText_cons]
    exact hkey.append (.cons rfl (.cons rfl hitems))

theorem isPlainText_renderChars (f : Flow) : IsPlainText f.renderChars := by
  have hlines : IsPlainText f.lines := by
    rw [lines]
    split
    · exact (isPlainText_entry 2 (isPlainText_key isKey_name) _).append
        ((IsPlainText.spaces 2).append (isPlainText_stepsText f.steps))
    · exact isPlainText_stepsText f.steps
  rw [renderChars_eq]
  exact (isPlainText_key isKey_flows).append
    (.cons rfl (.cons rfl ((IsPlainText.spaces 0).append (.cons rfl (.cons rfl hlines)))))

theorem scan_renderChars (f : Flow) : scan f.renderChars = (f.tokens.toArray, none) := by
  have hall : f.renderChars.all isAllowed = true :=
    List.all_eq_true.2 fun c hc => isAllowed_of_isPlainAscii (f.isPlainText_renderChars c hc)
  rw [scan, if_pos hall, run_renderChars]

/-! ## From tokens to the node -/

theorem reads_textWritten {e : String × Points} (h : Tag.ofPlain e.1.toList = .str) :
    (textWritten e).Reads := ⟨h, readsEntry_scalar e.2⟩

theorem readsItem_element (e : Element) : ReadsItem e.tokens e.node := by
  refine readsItem_map ?_
  intro w hw
  obtain ⟨p, hp, rfl⟩ := List.mem_map.1 hw
  exact reads_textWritten (e.ofPlain_fields p hp)

theorem reads_stepsWritten (steps : List Element) : (stepsWritten steps).Reads := by
  refine ⟨show Tag.ofPlain "steps".toList = .str by decide, ?_⟩
  cases steps with
  | nil => exact readsEntry_emptySeq
  | cons e es =>
    have h := readsEntry_items (l := (e :: es).map fun e => (e.tokens, e.node)) (by simp) (by
      intro i hi
      obtain ⟨d, -, rfl⟩ := List.mem_map.1 hi
      exact readsItem_element d)
    rw [List.flatMap_map, List.map_map] at h
    exact h

theorem reads_entriesWritten (f : Flow) : ∀ e ∈ f.entriesWritten, e.Reads := by
  intro e he
  obtain he | he := List.mem_append.1 he
  · obtain ⟨n, -, rfl⟩ := List.mem_map.1 he
    exact reads_textWritten (show Tag.ofPlain "name".toList = .str by decide)
  · rw [List.mem_singleton.1 he]
    exact reads_stepsWritten f.steps

theorem reads_flowsWritten (f : Flow) : f.flowsWritten.Reads := by
  have h := readsEntry_items (l := [(_, _)]) (by simp) (by
    simpa using readsItem_map f.reads_entriesWritten)
  exact ⟨show Tag.ofPlain "flows".toList = .str by decide, by simpa [flowsWritten] using h⟩

/-! ## From the node to the value -/

def node (f : Flow) : Node := .map none .map ([f.flowsWritten].map WrittenEntry.entry)

theorem means_textWritten {es : List (String × Points)} (h : (es.map Prod.fst).Nodup) :
    (Node.map none .map ((es.map textWritten).map WrittenEntry.entry)).Means
      (.map (es.map fun e => (.text e.1, .text e.2))) := by
  have hmap := Node.Means.map_of_nodup (es.map fun p => ((p.1 : Points), Node.text p.2, .text p.2))
    (by
      intro w hw
      obtain ⟨p, -, rfl⟩ := List.mem_map.1 hw
      exact .text p.2)
    (by
      rw [List.map_map]
      exact List.Pairwise.map _ (fun _ _ hne he => hne (Points.ofString_inj.1 he))
        (List.pairwise_map.1 h))
  rw [List.map_map, List.map_map] at hmap
  rw [List.map_map]
  exact hmap

theorem means_element (e : Element) : e.node.Means e.description := by
  have h := @means_textWritten e.fields (by cases e <;> simp [Element.fields])
  cases e <;> exact h

theorem means_steps (steps : List Element) : (Node.seq none .seq (steps.map Element.node)).Means
    (.seq (steps.map Element.description)) := by
  have h := Node.Means.seq (steps.map fun e => (e.node, e.description)) (by
    intro i hi
    obtain ⟨e, -, rfl⟩ := List.mem_map.1 hi
    exact means_element e)
  rw [List.map_map, List.map_map] at h
  exact h

/-- The entries of the mapping that describes a flow. -/
def entries (f : Flow) : List (Value × Value) :=
  (f.shownName.toList.map fun (n : String) => (.text "name", .text n)) ++
    [(.text "steps", .seq (f.steps.map Element.description))]

theorem description_eq (f : Flow) :
    f.description = .map [(.text "flows", .seq [.map f.entries])] := by
  unfold description entries shownName
  cases f.name with
  | none => rfl
  | some n =>
    by_cases hn : n = ""
    · subst hn
      rfl
    · have hshown : (some n).filter (fun n => !n.isEmpty) = some n := by
        simp [Option.filter, hn]
      simp [hn, hshown]

theorem means_entriesWritten (f : Flow) :
    (Node.map none .map (f.entriesWritten.map WrittenEntry.entry)).Means (.map f.entries) := by
  have hsteps := means_steps f.steps
  cases hn : f.shownName with
  | none =>
    have h := Node.Means.map_of_nodup [("steps", _, _)] (by simpa using hsteps) (by simp)
    simpa [entriesWritten, entries, hn, stepsWritten, WrittenEntry.entry] using h
  | some n =>
    have h := Node.Means.map_of_nodup [("name", _, _), ("steps", _, _)]
      (by simpa using ⟨Node.Means.text n, hsteps⟩) (by simp [Points.ofString])
    simpa [entriesWritten, entries, hn, stepsWritten, WrittenEntry.entry, textWritten] using h

theorem means_node (f : Flow) : f.node.Means f.description := by
  have h := Node.Means.map_of_nodup [("flows", _, _)] (by
    simpa using Node.Means.seq [(_, _)] (by simpa using f.means_entriesWritten)) (by simp)
  rw [description_eq]
  exact h

/-- For every flow, the text of its document reads back as the flow's description, and all of it is
ASCII. -/
theorem read_render (f : Flow) :
    Value.read f.render = .ok f.description ∧ ∀ b ∈ f.render.toUTF8.data, b < 128 := by
  constructor
  · have hnode : Node.ofTokens f.tokens none = .ok (some f.node) :=
      ofTokens_map (by simpa using f.reads_flowsWritten) (by
        rw [← node, f.means_node.anchors]
        rfl)
    rw [Value.read, render, String.toList_ofList, scan_renderChars]
    simp only [hnode]
    exact Value.ofNode_of_means f.means_node
  · refine toUTF8_ascii ?_
    intro c hc
    rw [render, String.toList_ofList] at hc
    exact toNat_of_isPlainAscii (f.isPlainText_renderChars c hc)

/-- A flow whose texts look like other things than text, or have blanks that a reader may lose. -/
def mixedFlow : Flow :=
  ⟨some "no",
    [.endpoint "timer:tick?period=1000", .filter "$\x7bbody.n\x7d == '1'\n", .log " 12" "INFO"]⟩

theorem read_render_mixedFlow :
    mixedFlow.render = "flows:\n- name: 'no'\n  steps:\n" ++
      "  - kind: endpoint\n    uri: timer:tick?period=1000\n" ++
      "  - kind: filter\n    expression: '$\x7bbody.n\x7d == ''1''\n\n      '\n" ++
      "  - kind: log\n    message: ' 12'\n    loggingLevel: INFO\n" ∧
    Value.read mixedFlow.render =
      .ok (.map [(.text "flows", .seq [.map [(.text "name", .text "no"), (.text "steps", .seq [
        .map [(.text "kind", .text "endpoint"), (.text "uri", .text "timer:tick?period=1000")],
        .map [(.text "kind", .text "filter"),
          (.text "expression", .text "$\x7bbody.n\x7d == '1'\n")],
        .map [(.text "kind", .text "log"), (.text "message", .text " 12"),
          (.text "loggingLevel", .text "INFO")]])]])]) ∧
    Value.read (render ⟨some "", []⟩) =
      .ok (.map [(.text "flows", .seq [.map [(.text "steps", .seq [])]])]) :=
  ⟨by decide +kernel, (read_render mixedFlow).1, (read_render ⟨some "", []⟩).1⟩

end Flow
end RouteCompiler
