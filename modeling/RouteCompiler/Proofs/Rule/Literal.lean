import RouteCompiler.Proofs.Compile
import RouteCompiler.Proofs.Json.Shown
import RouteCompiler.Visitor.Filter

/-!
The literals of rules. The expression of a rule ends with its value between single quotes, whose own
quotes have a backslash before them. Backslashes are left as they are, so the literal ends where it
should exactly if the value has none that take part in this: in a text those before a quote or at
the end must come in pairs, and of the texts within any other value none may have quotes of both
kinds. Else the literal ends early, or it goes on into the rule behind it. A half of a surrogate
pair is one more character here, for it is neither quote nor backslash.
-/

namespace RouteCompiler

open Text

/-- The value stays within a literal when its quotes are escaped. -/
def Json.FitsLiteral : Json → Prop
  | .str s => PairsBackslashes s.toList
  | j => j.OneQuote

theorem Json.through_toText_iff (j : Json) :
    through false j.toText.toList = some false ↔ j.FitsLiteral := by
  have hshown := (passes_shown j).iff
  rw [← Points.toList_ofString] at hshown
  cases j with
  | str s => exact through_iff_pairsBackslashes s.toList
  | null | bool | int | float | arr | obj => exact hshown

namespace Rule

/-- What stands before the literal of a rule. -/
def opening (r : Rule) : Points := "$\x7bbody." ++ r.path.toText ++ "\x7d " ++ r.op.toText ++ " "

/-- The literal of a rule without its quotes. -/
def literal (r : Rule) : Points := escapeQuotes r.value.toText

/-- What stands before a rule where rules are joined. -/
def joinedBefore (operator : String) (rules : List Rule) : Points :=
  rules.flatMap fun r => expression r ++ operator

/-- What stands behind a rule where rules are joined. -/
def joinedBehind (operator : String) (rules : List Rule) : Points :=
  rules.flatMap fun r => operator ++ expression r

theorem expression_eq (r : Rule) : expression r = opening r ++ "'" ++ literal r ++ "'" := by
  have hopening : (" '" : Points) = (" " : Points) ++ ("'" : Points) := rfl
  rw [expression, opening, literal, hopening]
  simp only [List.append_assoc]

theorem toList_escapeQuotes (s : Points) : (escapeQuotes s).toList = quotesEscaped s.toList := by
  simp only [escapeQuotes, quotesEscaped, Points.toList, List.map_flatMap, List.flatMap_map]
  congr 1
  funext p
  cases p with
  | char c => by_cases hc : c = '\'' <;> simp [hc, Point.toChar]
  | half n => simp [Point.toChar]

/-- Whatever stands behind the literal, its end is found exactly if the value fits. -/
theorem behindLiteral_iff (r : Rule) (rest : List Char) :
    behindLiteral false ((literal r).toList ++ '\'' :: rest) = some rest ↔ r.value.FitsLiteral := by
  rw [literal, toList_escapeQuotes, behindLiteral_quotesEscaped, Json.through_toText_iff]

theorem intercalate_cons (operator : String) (r : Rule) (rules : List Rule) :
    List.intercalate operator ((r :: rules).map expression) =
      expression r ++ joinedBehind operator rules := by
  induction rules generalizing r with
  | nil => simp [joinedBehind]
  | cons r' rules ih =>
    have hne : (r' :: rules).map expression ≠ [] := by simp
    rw [List.map_cons, List.intercalate_cons_of_ne_nil hne, ih, joinedBehind, joinedBehind,
      List.flatMap_cons]
    simp only [List.append_assoc]

theorem intercalate_append_cons (operator : String) (before : List Rule) (r : Rule)
    (after : List Rule) : List.intercalate operator ((before ++ r :: after).map expression) =
      joinedBefore operator before ++ expression r ++ joinedBehind operator after := by
  induction before with
  | nil => rw [List.nil_append, intercalate_cons, joinedBefore, List.flatMap_nil, List.nil_append]
  | cons b before ih =>
    have hne : (before ++ r :: after).map expression ≠ [] := by simp
    rw [List.cons_append, List.map_cons, List.intercalate_cons_of_ne_nil hne, ih, joinedBefore,
      joinedBefore, List.flatMap_cons]
    simp only [List.append_assoc]

/-- The expression of a rule filter joins the expressions of its rules. -/
theorem exists_of_ruleExpression {configured : PropertyMap} {e : Points}
    (h : Filter.ruleExpression? configured = .ok (some e)) :
    ∃ (rules : List Rule) (p : Predicate), parse (configured.get? "rules") = .ok rules ∧
      e = List.intercalate p.operator (rules.map expression) := by
  rw [Filter.ruleExpression?] at h
  cases hparse : parse (configured.get? "rules") with
  | error error =>
    rw [hparse] at h
    cases h
  | ok rules =>
    rw [hparse] at h
    cases rules with
    | nil => cases h
    | cons r rules =>
      cases hp : Predicate.ofWord? (Text.upper ((configured.get? "predicate").getD "AND")) with
      | none =>
        simp only [bind, Except.bind, hp] at h
        cases h
      | some p =>
        simp only [bind, Except.bind, hp] at h
        obtain rfl := Option.some.inj (Except.ok.inj h)
        exact ⟨r :: rules, p, rfl, rfl⟩

/-- The expression of a rule ends with the literal of its value, and a reader who starts behind the
opening quote comes to its end with the closing one exactly if the value fits. It is the same where
rules are joined: the reader is then before the operator of the next rule. -/
theorem literals_of_rules (r : Rule) :
    expression r = opening r ++ "'" ++ literal r ++ "'" ∧
    (behindLiteral false ((literal r).toList ++ ['\'']) = some [] ↔ r.value.FitsLiteral) ∧
    ∀ configured e, Filter.ruleExpression? configured = .ok (some e) →
      ∃ (rules : List Rule) (p : Predicate), parse (configured.get? "rules") = .ok rules ∧
        ∀ before after, rules = before ++ r :: after →
          e = joinedBefore p.operator before ++ (opening r ++ "'" ++ literal r ++ "'") ++
            joinedBehind p.operator after ∧
          (behindLiteral false
              ((literal r).toList ++ '\'' :: (joinedBehind p.operator after).toList) =
                some (joinedBehind p.operator after).toList ↔ r.value.FitsLiteral) := by
  refine ⟨expression_eq r, behindLiteral_iff r [], ?_⟩
  intro configured e h
  obtain ⟨rules, p, hparse, rfl⟩ := exists_of_ruleExpression h
  refine ⟨rules, p, hparse, ?_⟩
  rintro before after rfl
  refine ⟨?_, behindLiteral_iff r _⟩
  rw [intercalate_append_cons, expression_eq]

/-- Two rules whose values have quotes, one of them in a text within a list. -/
def quotingRules : PropertyMap :=
  OrderedMap.ofList
    [ ("rules", "[\x7b\"path\": \"name\", \"op\": \"==\", \"value\": \"O'Brien\"\x7d, " ++
        "\x7b\"path\": \"tags\", \"op\": \"in\", \"value\": [\"it's\"]\x7d]") ]

theorem literals_of_quotingRules :
    Filter.ruleExpression? quotingRules =
        .ok (some "$\x7bbody.name\x7d == 'O\\'Brien' && $\x7bbody.tags\x7d in '[\"it\\'s\"]'") ∧
      ∃ (r r' : Rule) (p : Predicate), parse (quotingRules.get? "rules") = .ok [r, r'] ∧
        behindLiteral false
            ((literal r).toList ++ '\'' :: (joinedBehind p.operator [r']).toList) =
          some (joinedBehind p.operator [r']).toList ∧
        behindLiteral false ((literal r').toList ++ ['\'']) = some [] := by
  have hexpression : (Filter.ruleExpression? quotingRules).toOption = some (some (Points.ofString
      "$\x7bbody.name\x7d == 'O\\'Brien' && $\x7bbody.tags\x7d in '[\"it\\'s\"]'")) := by
    decide +kernel
  have hvalues : (parse (quotingRules.get? "rules")).toOption.map
      (fun rules => rules.map fun r => through false r.value.toText.toList) =
        some [some false, some false] := by
    decide +kernel
  have hexpression := eq_ok_of_toOption hexpression
  obtain ⟨rules, hrules, hvalues⟩ := Option.map_eq_some_iff.1 hvalues
  obtain ⟨r, rest, rfl, hr, hvalues⟩ := List.map_eq_cons_iff.1 hvalues
  obtain ⟨r', rest, rfl, hr', hvalues⟩ := List.map_eq_cons_iff.1 hvalues
  obtain rfl := List.map_eq_nil_iff.1 hvalues
  have hparse := eq_ok_of_toOption hrules
  obtain ⟨-, -, hjoined⟩ := literals_of_rules r
  obtain ⟨-, hlast, -⟩ := literals_of_rules r'
  obtain ⟨rules', p, hparse', hjoined⟩ := hjoined _ _ hexpression
  obtain rfl : [r, r'] = rules' := Except.ok.inj (hparse.symm.trans hparse')
  refine ⟨hexpression, r, r', p, hparse, ?_, ?_⟩
  · exact (hjoined [] [r'] rfl).2.2 ((Json.through_toText_iff _).1 hr)
  · exact hlast.2 ((Json.through_toText_iff _).1 hr')

/-- A rule whose value is one backslash. -/
def backslashRule : Rule := ⟨.str "name", .str "==", .str "\\"⟩

/-- The reader does not find the end of its literal, and where another rule follows, takes the
opening quote of that for it. -/
theorem behindLiteral_backslashRule :
    backslashRule.path.holds = true ∧ backslashRule.op.holds = true ∧
      expression backslashRule = "$\x7bbody.name\x7d == '\\'" ∧
      behindLiteral false ((literal backslashRule).toList ++ ['\'']) ≠ some [] ∧
      behindLiteral false ((literal backslashRule).toList ++
          '\'' :: (joinedBehind " && " [⟨.str "id", .str "==", .str "7"⟩]).toList) =
        some "7'".toList := by
  decide

end Rule
end RouteCompiler
