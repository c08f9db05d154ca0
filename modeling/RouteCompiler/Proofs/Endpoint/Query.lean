import RouteCompiler.Proofs.Endpoint.Uri
import RouteCompiler.Proofs.Text.Pieces

/-!
Reading the query of an endpoint back. A reader takes what is behind the first question mark, cuts
it at every ampersand and each piece at its first equals sign. Values are written into the URI as
they are, so it finds the options that were written exactly if no mark of the query stands where the
reader would take it for one; else some value has become part of other parameters.
-/

namespace RouteCompiler.Endpoint

/-! ## The reader -/

/-- What stands before the first `d` and what stands behind it. -/
def cutAt (d : Char) : List Char → Option (List Char × List Char)
  | [] => none
  | c :: cs => if c = d then some ([], cs) else (cutAt d cs).map fun p => (c :: p.1, p.2)

/-- A name and its value; without an equals sign there is none. -/
def readParameter (piece : List Char) : Option (String × String) :=
  (cutAt '=' piece).map fun p => (String.ofList p.1, String.ofList p.2)

/-- The parameters of a query, if each piece of it is one. -/
def readParameters (text : List Char) : Option (List (String × String)) :=
  (text.splitOn '&').mapM readParameter

/-- The parameters of a URI; without a question mark it has none. -/
def readQuery (uri : String) : Option (List (String × String)) :=
  match cutAt '?' uri.toList with
  | none => some []
  | some (_, text) => readParameters text

/-- The name has no mark that ends it, and the value none that ends the piece. -/
def Clean (e : String × String) : Prop :=
  '&' ∉ e.1.toList ∧ '=' ∉ e.1.toList ∧ '&' ∉ e.2.toList

/-- A parameter as it is written. -/
def parameterText (e : String × String) : List Char := e.1.toList ++ '=' :: e.2.toList

/-! ## What the reader accepts -/

theorem cutAt_eq_some_iff {d : Char} {cs before after : List Char} :
    cutAt d cs = some (before, after) ↔ d ∉ before ∧ cs = before ++ d :: after := by
  induction cs generalizing before with
  | nil => simp [cutAt]
  | cons c cs ih =>
    rw [cutAt]
    by_cases hc : c = d
    · rw [if_pos hc]
      constructor
      · intro h
        obtain ⟨rfl, rfl⟩ := Prod.mk.inj (Option.some.inj h)
        exact ⟨List.not_mem_nil, by rw [hc]; rfl⟩
      · rintro ⟨hd, h⟩
        -- the first character is the delimiter, which has to be the first one
        cases before with
        | nil => rw [(List.cons.inj h).2]
        | cons b before =>
          have hb : d ∈ b :: before := (List.cons.inj h).1 ▸ hc ▸ List.mem_cons_self
          exact absurd hb hd
    · rw [if_neg hc]
      constructor
      · intro h
        obtain ⟨⟨front, rest⟩, hcut, hp⟩ := Option.map_eq_some_iff.1 h
        obtain ⟨rfl, rfl⟩ := Prod.mk.inj hp
        obtain ⟨hfront, rfl⟩ := ih.1 hcut
        refine ⟨?_, rfl⟩
        rw [List.mem_cons, not_or]
        exact ⟨Ne.symm hc, hfront⟩
      · rintro ⟨hd, h⟩
        cases before with
        | nil => exact absurd (List.cons.inj h).1 hc
        | cons b before =>
          obtain ⟨rfl, hcs⟩ := List.cons.inj h
          rw [ih.2 ⟨fun hmem => hd (List.mem_cons_of_mem _ hmem), hcs⟩]
          rfl

theorem cutAt_eq_none_iff {d : Char} {cs : List Char} : cutAt d cs = none ↔ d ∉ cs := by
  induction cs with
  | nil => simp [cutAt]
  | cons c cs ih =>
    rw [cutAt, List.mem_cons, not_or, ← ih]
    by_cases hc : c = d
    · simp [hc]
    · simp [hc, Ne.symm hc]

theorem readParameter_eq_some_iff {piece : List Char} {e : String × String} :
    readParameter piece = some e ↔ '=' ∉ e.1.toList ∧ piece = parameterText e := by
  rw [readParameter, Option.map_eq_some_iff]
  constructor
  · rintro ⟨⟨name, value⟩, hcut, rfl⟩
    simpa [parameterText] using cutAt_eq_some_iff.1 hcut
  · intro h
    exact ⟨(e.1.toList, e.2.toList), cutAt_eq_some_iff.2 h, by simp⟩

theorem mapM_readParameter_eq_some_iff {pieces : List (List Char)} {es : List (String × String)} :
    pieces.mapM readParameter = some es ↔
      (∀ e ∈ es, '=' ∉ e.1.toList) ∧ pieces = es.map parameterText := by
  induction pieces generalizing es with
  | nil => cases es <;> simp
  | cons piece pieces ih =>
    rw [List.mapM_cons]
    constructor
    · intro h
      obtain ⟨e, he, h⟩ := Option.bind_eq_some_iff.1 h
      obtain ⟨fs, hfs, h⟩ := Option.bind_eq_some_iff.1 h
      obtain rfl : e :: fs = es := Option.some.inj h
      obtain ⟨hname, rfl⟩ := readParameter_eq_some_iff.1 he
      obtain ⟨hnames, rfl⟩ := ih.1 hfs
      exact ⟨List.forall_mem_cons.2 ⟨hname, hnames⟩, rfl⟩
    · rintro ⟨hnames, hpieces⟩
      cases es with
      | nil => cases hpieces
      | cons e es =>
        obtain ⟨hpiece, hpieces⟩ := List.cons.inj hpieces
        obtain ⟨hname, hnames⟩ := List.forall_mem_cons.1 hnames
        rw [readParameter_eq_some_iff.2 ⟨hname, hpiece⟩, ih.2 ⟨hnames, hpieces⟩]
        rfl

theorem clean_iff {e : String × String} :
    Clean e ↔ '=' ∉ e.1.toList ∧ '&' ∉ parameterText e := by
  have hne : ¬ '&' = '=' := by decide
  simp only [Clean, parameterText, List.mem_append, List.mem_cons, not_or, hne, not_false_eq_true,
    true_and]
  exact and_left_comm

/-- The reader finds parameters in the text that is written for them and in no other, and only if
they are clean. -/
theorem readParameters_eq_some_iff {text : List Char} {es : List (String × String)} :
    readParameters text = some es ↔
      es ≠ [] ∧ (∀ e ∈ es, Clean e) ∧ text = ['&'].intercalate (es.map parameterText) := by
  rw [readParameters, mapM_readParameter_eq_some_iff, splitOn_eq_iff]
  simp only [clean_iff, ne_eq, List.map_eq_nil_iff, List.forall_mem_map]
  constructor
  · rintro ⟨hnames, hne, hpieces, htext⟩
    exact ⟨hne, fun e he => ⟨hnames e he, hpieces e he⟩, htext⟩
  · rintro ⟨hne, hclean, htext⟩
    exact ⟨fun e he => (hclean e he).1, hne, fun e he => (hclean e he).2, htext⟩

/-! ## Reading what was written -/

/-- The query of some options, and its mark unless there are none. -/
def queryText (es : List (String × String)) : String :=
  if es = [] then "" else "?" ++ "&".intercalate (es.map fun e => e.1 ++ "=" ++ e.2)

theorem toList_queryText {es : List (String × String)} (h : es ≠ []) :
    (queryText es).toList = '?' :: ['&'].intercalate (es.map parameterText) := by
  have hpieces : (es.map fun e => e.1 ++ "=" ++ e.2).map String.toList = es.map parameterText := by
    rw [List.map_map]
    refine List.map_congr_left fun e _ => ?_
    simp [parameterText]
  rw [queryText, if_neg h, String.toList_append, String.toList_intercalate, hpieces]
  rfl

/-- Behind a path, the reader finds the options that were written if the path has no question mark
and the options are clean, and not otherwise. -/
theorem readQuery_append_queryText {path : String} {es : List (String × String)} :
    readQuery (path ++ queryText es) = some es ↔ '?' ∉ path.toList ∧ ∀ e ∈ es, Clean e := by
  rw [readQuery]
  by_cases hes : es = []
  · have htext : path ++ queryText es = path := by simp [queryText, hes]
    rw [htext, hes]
    cases hcut : cutAt '?' path.toList with
    | none => simpa using cutAt_eq_none_iff.1 hcut
    | some p =>
      obtain ⟨-, hpath⟩ := cutAt_eq_some_iff.1 hcut
      simp [readParameters_eq_some_iff, hpath]
  · rw [String.toList_append, toList_queryText hes]
    constructor
    · intro h
      cases hcut : cutAt '?' (path.toList ++ '?' :: ['&'].intercalate (es.map parameterText)) with
      | none => exact absurd (by simp) (cutAt_eq_none_iff.1 hcut)
      | some p =>
        obtain ⟨front, text⟩ := p
        rw [hcut] at h
        obtain ⟨-, hclean, rfl⟩ := readParameters_eq_some_iff.1 h
        obtain ⟨hfront, hcs⟩ := cutAt_eq_some_iff.1 hcut
        -- the text behind the mark is the written one, so the mark is the one that was written
        rw [List.append_cancel_right hcs]
        exact ⟨hfront, hclean⟩
    · rintro ⟨hpath, hclean⟩
      rw [cutAt_eq_some_iff.2 ⟨hpath, rfl⟩]
      exact readParameters_eq_some_iff.2 ⟨hes, hclean, rfl⟩

/-! ## The path -/

/-- The value of a positional property: the configured one, or else the default of a required
property. -/
def segmentValue? (options : PropertyMap) (name : String) (d : PropertyDefinition) :
    Option String :=
  (options.get? name).or (if d.required then some (d.defaultValue.getD "") else none)

/-- The values that the path of an endpoint has, in their order. -/
def segmentValues (a : Action) (options : PropertyMap) : List String :=
  a.positional.filterMap fun name => (a.lastDefinition? name).bind (segmentValue? options name)

theorem segmentOf_eq (options : PropertyMap) (name : String) (d : PropertyDefinition) :
    segmentOf options name d = ((segmentValue? options name d).map (":" ++ ·)).getD "" := by
  rw [segmentOf, segmentValue?]
  cases options.get? name with
  | some v => rfl
  | none => by_cases h : d.required = true <;> simp [h]

theorem join_segments (a : Action) (options : PropertyMap) :
    String.join (a.positional.map (segment a options)) =
      String.join ((segmentValues a options).map (":" ++ ·)) := by
  rw [segmentValues]
  induction a.positional with
  | nil => rfl
  | cons name names ih =>
    rw [List.map_cons, String.join_cons, ih, segment, List.filterMap_cons]
    cases a.lastDefinition? name with
    | none => simp
    | some d =>
      rw [Option.map_some, Option.getD_some, segmentOf_eq, Option.bind_some]
      cases segmentValue? options name d with
      | none => simp
      | some v => simp

theorem notMem_join_segments {d : Char} (hd : d ≠ ':') (values : List String) :
    d ∉ (String.join (values.map (":" ++ ·))).toList ↔ ∀ v ∈ values, d ∉ v.toList := by
  induction values with
  | nil => simp
  | cons v values ih =>
    rw [List.map_cons, String.join_cons, String.toList_append, List.mem_append, not_or, ih,
      List.forall_mem_cons]
    simp [hd]

/-- The reader finds in the URI the options that are left for the query exactly if the scheme and
the values in the path have no question mark and these options are clean. -/
theorem readQuery_uri_iff (a : Action) (base scheme : String) (options : PropertyMap) :
    let values := segmentValues a options
    let queried := options.entries.filter fun e => decide (e.1 ∉ a.positional)
    uri a base scheme options =
        scheme ++ String.join (values.map (":" ++ ·)) ++
          (if queried = [] then ""
           else "?" ++ "&".intercalate (queried.map fun e => e.1 ++ "=" ++ e.2)) ∧
      (readQuery (uri a base scheme options) = some queried ↔
        ('?' ∉ scheme.toList ∧ ∀ v ∈ values, '?' ∉ v.toList) ∧
          ∀ e ∈ queried, '&' ∉ e.1.toList ∧ '=' ∉ e.1.toList ∧ '&' ∉ e.2.toList) := by
  intro values queried
  have huri : uri a base scheme options =
      scheme ++ String.join (values.map (":" ++ ·)) ++ queryText queried := by
    rw [uri_eq, query_eq, join_segments]
    rfl
  refine ⟨huri, ?_⟩
  rw [huri, readQuery_append_queryText, String.toList_append, List.mem_append, not_or,
    notMem_join_segments (by decide)]
  rfl

/-- A value with an ampersand in it goes on as a parameter of its own. -/
example : readQuery (uri { scheme := "search" } "search" "search-1"
    (OrderedMap.ofList [("q", "cats&limit=1")])) = some [("q", "cats"), ("limit", "1")] := by
  decide

end RouteCompiler.Endpoint
