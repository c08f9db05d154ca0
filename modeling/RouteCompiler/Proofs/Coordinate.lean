import RouteCompiler.Proofs.Project.Dependencies
import RouteCompiler.Proofs.Text.Pieces

/-!
Coordinates and their texts. Reading a text and writing a coordinate are inverse to each other
between the texts with two colons and the coordinates without a colon in their parts; every other
text is malformed. So coordinates are equal exactly if their texts are, and collecting dependencies
comes to the same as collecting their texts.
-/

namespace RouteCompiler.Coordinate

/-- None of the three parts has a colon. -/
def Plain (c : Coordinate) : Prop :=
  ':' ∉ c.group.toList ∧ ':' ∉ c.artifact.toList ∧ ':' ∉ c.version.toList

/-! ## Reading and writing -/

theorem toList_toString (c : Coordinate) : c.toString.toList =
    [':'].intercalate [c.group.toList, c.artifact.toList, c.version.toList] := by
  simp [toString, List.intercalate]

theorem count_toString (c : Coordinate) : c.toString.toList.count ':' =
    c.group.toList.count ':' + c.artifact.toList.count ':' + c.version.toList.count ':' + 2 := by
  simp [toString]
  omega

theorem plain_iff (c : Coordinate) : c.Plain ↔ c.toString.toList.count ':' = 2 := by
  rw [count_toString, Plain, ← List.count_eq_zero, ← List.count_eq_zero, ← List.count_eq_zero]
  omega

/-- Reading cuts the text into the three parts. -/
theorem parse_eq_ok_iff_splitOn {text : String} {c : Coordinate} : parse text = .ok c ↔
    text.toList.splitOn ':' = [c.group.toList, c.artifact.toList, c.version.toList] := by
  rw [parse]
  split
  next g a v h =>
    rw [h, Except.ok.injEq]
    constructor
    · rintro rfl
      simp
    · intro hparts
      simp only [List.cons.injEq, and_true] at hparts
      obtain ⟨rfl, rfl, rfl⟩ := hparts
      simp
  next h =>
    constructor
    · exact nofun
    · intro hparts
      exact absurd hparts (h _ _ _)

theorem parse_eq_ok_iff {text : String} {c : Coordinate} :
    parse text = .ok c ↔ c.Plain ∧ c.toString = text := by
  rw [parse_eq_ok_iff_splitOn, splitOn_eq_iff, ← toList_toString, String.toList_inj]
  constructor
  · rintro ⟨-, hparts, rfl⟩
    exact ⟨by simpa [Plain] using hparts, rfl⟩
  · rintro ⟨⟨hg, ha, hv⟩, rfl⟩
    exact ⟨by simp, by simp [hg, ha, hv], rfl⟩

theorem exists_parse_iff {text : String} :
    (∃ c, parse text = .ok c) ↔ text.toList.count ':' = 2 := by
  have hlen := length_splitOn ':' text.toList
  constructor
  · rintro ⟨c, h⟩
    rw [parse_eq_ok_iff_splitOn.1 h] at hlen
    exact Nat.succ.inj hlen.symm
  · intro hcount
    rw [hcount] at hlen
    obtain ⟨g, a, v, hparts⟩ := List.length_eq_three.1 hlen
    refine ⟨⟨String.ofList g, String.ofList a, String.ofList v⟩, ?_⟩
    rw [parse_eq_ok_iff_splitOn, hparts]
    simp

theorem parse_eq_error_iff {text : String} :
    parse text = .error (.malformedCoordinate text) ↔ text.toList.count ':' ≠ 2 := by
  rw [Ne, ← exists_parse_iff, not_exists]
  cases h : parse text with
  | ok c => simp
  | error e => simp [eq_of_parse_eq_error h]

theorem parse_toString_iff {c : Coordinate} : parse c.toString = .ok c ↔ c.Plain := by
  rw [parse_eq_ok_iff, and_iff_left rfl]

/-- Coordinates that are read differ exactly if their texts do. -/
theorem eq_iff_of_parse {t u : String} {c d : Coordinate} (hc : parse t = .ok c)
    (hd : parse u = .ok d) : c = d ↔ t = u := by
  constructor
  · rintro rfl
    rw [← (parse_eq_ok_iff.1 hc).2, (parse_eq_ok_iff.1 hd).2]
  · rintro rfl
    exact Except.ok.inj (hc.symm.trans hd)

/-! ## Collecting by text -/

section
variable {α β : Type} [DecidableEq α] [DecidableEq β]

theorem eraseDups_concat (l : List α) (a : α) :
    (l ++ [a]).eraseDups = if a ∈ l then l.eraseDups else l.eraseDups ++ [a] := by
  rw [List.eraseDups_append]
  by_cases h : a ∈ l <;> simp [List.removeAll, h, List.eraseDups_cons]

/-- What keeps the elements of a list apart can be applied before duplicates are removed. -/
theorem map_eraseDups {f : α → β} {l : List α}
    (h : ∀ a ∈ l, ∀ b ∈ l, f a = f b → a = b) : l.eraseDups.map f = (l.map f).eraseDups := by
  induction l using List.reverseRecOn with
  | nil => rfl
  | append_singleton l a ih =>
    have hmem : f a ∈ l.map f ↔ a ∈ l := by
      rw [List.mem_map]
      constructor
      · rintro ⟨b, hb, hba⟩
        exact h b (by simp [hb]) a (by simp) hba ▸ hb
      · intro ha
        exact ⟨a, ha, rfl⟩
    have hl := ih fun b hb d hd => h b (by simp [hb]) d (by simp [hd])
    rw [List.map_append, List.map_singleton, eraseDups_concat, eraseDups_concat, ← hl]
    by_cases ha : a ∈ l
    · rw [if_pos ha, if_pos (hmem.2 ha)]
    · rw [if_neg ha, if_neg fun hfa => ha (hmem.1 hfa), List.map_append, List.map_singleton]

end

/-- What is collected is what is asked for, each coordinate where it is asked for first. -/
theorem collect_eq_eraseDups (steps : List Step) :
    (collect steps).1 = (steps.filterMap asked?).eraseDups := by
  induction steps using List.reverseRecOn with
  | nil => rfl
  | append_singleton steps s ih =>
    rw [collect_concat, collectStep_eq, ih, List.filterMap_append]
    cases hs : asked? s with
    | none => simp [hs]
    | some c =>
      have hc : [s].filterMap asked? = [c] := by simp [hs]
      have hmem : c ∈ (steps.filterMap asked?).eraseDups ↔ c ∈ steps.filterMap asked? :=
        List.mem_eraseDups
      rw [hc, eraseDups_concat, Option.toList_some]
      by_cases hseen : c ∈ steps.filterMap asked?
      · rw [if_pos hseen, List.filter_cons_of_neg (by simpa using hmem.2 hseen)]
        exact List.append_nil _
      · rw [if_neg hseen, List.filter_cons_of_pos (by simpa [hmem] using hseen)]
        rfl

/-- The dependency text of a step, if it is a coordinate. -/
def askedText? (s : Step) : Option String :=
  (textOf s).filter fun text => decide (text.toList.count ':' = 2)

theorem map_toString_asked? (s : Step) : (asked? s).map toString = askedText? s := by
  rw [asked?, askedText?]
  cases textOf s with
  | none => rfl
  | some text =>
    by_cases h : text.toList.count ':' = 2
    · obtain ⟨c, hc⟩ := exists_parse_iff.2 h
      rw [Option.filter_some, if_pos (decide_eq_true h)]
      simp [hc, Except.toOption, (parse_eq_ok_iff.1 hc).2]
    · rw [Option.filter_some, if_neg (by simpa using h)]
      simp [parse_eq_error_iff.2 h, Except.toOption]

/-- The texts of what is collected are the well-formed texts of the steps, each once. -/
theorem map_toString_collect (steps : List Step) :
    (collect steps).1.map toString = (steps.filterMap askedText?).eraseDups := by
  have happart : ∀ c ∈ steps.filterMap asked?, ∀ d ∈ steps.filterMap asked?,
      c.toString = d.toString → c = d := by
    intro c hc d hd htext
    obtain ⟨s, -, hs⟩ := List.mem_filterMap.1 hc
    obtain ⟨s', -, hs'⟩ := List.mem_filterMap.1 hd
    obtain ⟨t, -, ht⟩ := asked?_eq_some_iff.1 hs
    obtain ⟨u, -, hu⟩ := asked?_eq_some_iff.1 hs'
    rw [eq_iff_of_parse ht hu, ← (parse_eq_ok_iff.1 ht).2, ← (parse_eq_ok_iff.1 hu).2]
    exact htext
  have htexts : (steps.filterMap asked?).map toString = steps.filterMap askedText? := by
    rw [List.map_filterMap]
    simp only [map_toString_asked?]
  rw [collect_eq_eraseDups, map_eraseDups happart, htexts]

/-- A text is read as a coordinate exactly if it has two colons, and the coordinate is written as
this text; any other text is malformed. What is written for a coordinate is read as this coordinate
exactly if none of its parts has a colon, and is malformed otherwise. Coordinates that are read are
equal exactly if the texts are, so the dependencies of steps are those of their texts. -/
theorem parse_inverts_toString :
    (∀ text, if text.toList.count ':' = 2 then ∃ c, parse text = .ok c ∧ c.toString = text
      else parse text = .error (.malformedCoordinate text)) ∧
    (∀ c : Coordinate,
      if ':' ∉ c.group.toList ∧ ':' ∉ c.artifact.toList ∧ ':' ∉ c.version.toList then
        parse c.toString = .ok c
      else parse c.toString = .error (.malformedCoordinate c.toString)) ∧
    (∀ t u c d, parse t = .ok c → parse u = .ok d → (c = d ↔ t = u)) ∧
    ∀ steps, (collect steps).1.map toString = (steps.filterMap askedText?).eraseDups := by
  refine ⟨fun text => ?_, fun c => ?_, fun _ _ _ _ => eq_iff_of_parse, map_toString_collect⟩
  · split
    next h =>
      obtain ⟨c, hc⟩ := exists_parse_iff.2 h
      exact ⟨c, hc, (parse_eq_ok_iff.1 hc).2⟩
    next h => exact parse_eq_error_iff.2 h
  · split
    next h => exact parse_toString_iff.2 h
    next h => exact parse_eq_error_iff.2 fun hcount => h ((plain_iff c).2 hcount)

/-- Actions that ask for a dependency twice and for one with empty parts, beside a text with too
many colons. -/
def repeatingSteps : List Step :=
  ["org.acme:search:1.2", "::", "org.acme:search:1.2:jar", "org.acme:search:1.2"].map fun text =>
    { kind := "log", action := some { scheme := "direct", dependency := some text } }

theorem parse_inverts_toString_repeating :
    parse "::" = .ok ⟨"", "", ""⟩ ∧
    parse "org.acme:search:1.2" = .ok ⟨"org.acme", "search", "1.2"⟩ ∧
    (⟨"", "", ""⟩ : Coordinate) ≠ ⟨"org.acme", "search", "1.2"⟩ ∧
    parse (toString ⟨"org:acme", "search", "1.2"⟩) =
      .error (.malformedCoordinate "org:acme:search:1.2") ∧
    (collect repeatingSteps).1.map toString = ["org.acme:search:1.2", "::"] := by
  obtain ⟨-, hwritten, hequal, hcollect⟩ := parse_inverts_toString
  have hempty : parse "::" = .ok ⟨"", "", ""⟩ := rfl
  have hsearch : parse "org.acme:search:1.2" = .ok ⟨"org.acme", "search", "1.2"⟩ := rfl
  refine ⟨hempty, hsearch, ?_, ?_, ?_⟩
  · rw [Ne, hequal _ _ _ _ hempty hsearch]
    decide
  · exact hwritten ⟨"org:acme", "search", "1.2"⟩
  · rw [hcollect]
    decide

end RouteCompiler.Coordinate
