import RouteCompiler.Proofs.Json.Room
import RouteCompiler.Proofs.Project.Outcome

/-!
What a rule filter comes to. Its rules are looked at before its predicate: without any there is no
element, whatever the predicate says, and the first item of the list that is no rule is reported
even where the predicate is unknown. Otherwise the element joins the expressions of all items. An
integer of too many digits is not reported at all: it breaks the compilation down. The room for
lists and objects within each other is left open here, since those who call the reader take from it.
-/

namespace RouteCompiler

namespace Rule

/-- The expression of an item; a part that it does not have is empty. -/
def textOf (item : Json) : Points :=
  let part (name : String) : Points := ((item.member? name).getD (.str "")).toText
  "$\x7bbody." ++ part "path" ++ "\x7d " ++ part "op" ++ " '" ++ escapeQuotes (part "value") ++ "'"

theorem expression_of_complete? {item : Json} {r : Rule} (h : complete? item = some r) :
    expression r = textOf item := by
  obtain ⟨h, -⟩ := Option.filter_eq_some_iff.1 h
  obtain ⟨path, hpath, h⟩ := Option.bind_eq_some_iff.1 h
  obtain ⟨op, hop, h⟩ := Option.bind_eq_some_iff.1 h
  obtain rfl := Option.some.inj h
  simp only [expression, textOf, hpath, hop, Option.getD_some]

/-- Rules that are read have the expressions of their items, one for one. -/
theorem map_expression {items : List Json} {rules : List Rule}
    (h : List.Forall₂ (fun item r => complete? item = some r) items rules) :
    rules.map expression = items.map textOf := by
  induction h with
  | nil => rfl
  | cons hr _ ih => rw [List.map_cons, List.map_cons, expression_of_complete? hr, ih]

end Rule

namespace Filter

/-- The word that joins rules, and what stands between their expressions then. -/
inductive Joins : String → String → Prop
  | and : Joins "AND" " && "
  | or : Joins "OR" " || "

/-- The rules are configured with this text, which is not empty. -/
def Given (configured : PropertyMap) (text : String) : Prop :=
  configured.get? "rules" = some text ∧ text ≠ ""

/-- The predicate in upper case. -/
def predicateWord (configured : PropertyMap) : String :=
  Text.upper ((configured.get? "predicate").getD "AND")

/-- The room is enough for the rules that are configured. -/
def Fits (room : Nat) (configured : PropertyMap) : Prop :=
  ∀ text, Given configured text → Json.readWithin room text.toList ≠ .error .depth

/-- How the rule filter at a position ends. -/
inductive Ends (room : Nat) (configured : PropertyMap) (position : Nat) :
    Except Failure (Option Element) → Prop
  | noText (h : ∀ text, ¬ Given configured text) : Ends room configured position (.ok none)
  | noRules {text : String} (h : Given configured text)
      (hjson : Json.readWithin room text.toList = .ok (.arr [])) :
      Ends room configured position (.ok none)
  | notJson {text : String} {fault : Json.Fault} (h : Given configured text)
      (hjson : Json.readWithin room text.toList = .error (.fault fault)) :
      Ends room configured position
        (.error (.compile (.rules position (.notJson (fault.message text.toList)))))
  | longInteger {text : String} (h : Given configured text)
      (hjson : Json.readWithin room text.toList = .error .longInteger) :
      Ends room configured position (.error (.breakdown .longInteger))
  | notList {text : String} {j : Json} (h : Given configured text)
      (hjson : Json.readWithin room text.toList = .ok j) (hlist : ∀ items, j ≠ .arr items) :
      Ends room configured position (.error (.compile (.rules position .notList)))
  | incomplete {text : String} {before after : List Json} {item : Json}
      (h : Given configured text)
      (hjson : Json.readWithin room text.toList = .ok (.arr (before ++ item :: after)))
      (hbefore : ∀ i ∈ before, Rule.Complete i) (hitem : ¬ Rule.Complete item) :
      Ends room configured position (.error (.compile (.rules position (.incomplete item))))
  | unknownPredicate {text : String} {items : List Json} (h : Given configured text)
      (hjson : Json.readWithin room text.toList = .ok (.arr items)) (hne : items ≠ [])
      (hall : ∀ item ∈ items, Rule.Complete item)
      (hword : ∀ operator, ¬ Joins (predicateWord configured) operator) :
      Ends room configured position
        (.error (.compile (.rules position (.unknownPredicate (predicateWord configured)))))
  | joined {text operator : String} {items : List Json} (h : Given configured text)
      (hjson : Json.readWithin room text.toList = .ok (.arr items)) (hne : items ≠ [])
      (hall : ∀ item ∈ items, Rule.Complete item)
      (hword : Joins (predicateWord configured) operator) :
      Ends room configured position
        (.ok (some (.filter (List.intercalate operator (items.map Rule.textOf)))))

/-! ## Reading the rules -/

section
variable {configured : PropertyMap} {text : String}

theorem parse_of_not_given (h : ∀ text, ¬ Given configured text) :
    Rule.parse (configured.get? "rules") = .ok [] := by
  cases hr : configured.get? "rules" with
  | none => rfl
  | some text =>
    have htext : text = "" := Classical.byContradiction fun hne => h text ⟨hr, hne⟩
    rw [htext]
    rfl

theorem parse_of_given (h : Given configured text) :
    Rule.parse (configured.get? "rules") =
      match Json.read text with
      | .error (.fault fault) => .error (.wrong (.notJson (fault.message text.toList)))
      | .error .longInteger => .error (.breakdown .longInteger)
      | .error .depth => .error (.breakdown .nesting)
      | .ok (.arr items) => Rule.ofItems items
      | .ok _ => .error (.wrong .notList) := by
  have hfilter : (some text).filter (fun t => !t.isEmpty) = some text := by
    simp [Option.filter, h.2]
  rw [h.1]
  cases hread : Json.read text with
  | error e => cases e <;> simp only [Rule.parse, hfilter, hread]
  | ok j => cases j <;> simp only [Rule.parse, hfilter, hread]

theorem parse_of_list {items : List Json} (h : Given configured text)
    (hjson : Json.read text = .ok (.arr items)) :
    Rule.parse (configured.get? "rules") = Rule.ofItems items := by
  rw [parse_of_given h, hjson]

theorem parse_of_notList {j : Json} (h : Given configured text)
    (hjson : Json.read text = .ok j) (hlist : ∀ items, j ≠ .arr items) :
    Rule.parse (configured.get? "rules") = .error (.wrong .notList) := by
  rw [parse_of_given h, hjson]
  cases j with
  | arr items => exact absurd rfl (hlist items)
  | null | bool | int | float | str | obj => rfl

/-- Complete items are read as rules, of which there are none only if there are no items. -/
theorem exists_parse_of_complete {items : List Json} (h : Given configured text)
    (hjson : Json.read text = .ok (.arr items)) (hne : items ≠ [])
    (hall : ∀ item ∈ items, Rule.Complete item) :
    ∃ rules, Rule.parse (configured.get? "rules") = .ok rules ∧ rules ≠ [] ∧
      rules.map Rule.expression = items.map Rule.textOf := by
  obtain ⟨rules, hrules, hitems⟩ := Rule.exists_ofItems hall
  refine ⟨rules, (parse_of_list h hjson).trans hrules, ?_, Rule.map_expression hitems⟩
  rintro rfl
  exact hne (List.forall₂_nil_right_iff.1 hitems)

theorem joins_iff {word operator : String} :
    Joins word operator ↔ ∃ p, Predicate.ofWord? word = some p ∧ p.operator = operator := by
  constructor
  · rintro (_ | _)
    · exact ⟨.and, rfl, rfl⟩
    · exact ⟨.or, rfl, rfl⟩
  · rintro ⟨p, hp, rfl⟩
    rw [Predicate.ofWord?] at hp
    split at hp
    next h =>
      obtain rfl := Option.some.inj hp
      exact h ▸ .and
    next =>
      split at hp
      next h =>
        obtain rfl := Option.some.inj hp
        exact h ▸ .or
      next => cases hp

/-- Rules that are there are joined by the operator of the predicate, if it has one. -/
theorem ruleExpression?_of_rules {rules : List Rule}
    (h : Rule.parse (configured.get? "rules") = .ok rules) (hne : rules ≠ []) :
    ruleExpression? configured =
      match Predicate.ofWord? (predicateWord configured) with
      | none => .error (.wrong (.unknownPredicate (predicateWord configured)))
      | some p => .ok (some (List.intercalate p.operator (rules.map Rule.expression))) := by
  rw [ruleExpression?, h]
  cases rules with
  | nil => exact absurd rfl hne
  | cons r rules =>
    simp only [bind, Except.bind]
    rfl

end

/-! ## The visit -/

/-- How the expression of the rules at a position, or what is wrong with them, is handed on. -/
def handedOn (position : Nat) :
    Except RuleFailure (Option Points) → Except Failure (Option Element)
  | .error e => .error (e.at position)
  | .ok expression => .ok (expression.map .filter)

theorem visit_rules (x : Context) (c : StepCursor) (w : Workspace) :
    (((ruleVisitor x).visit c).runOn w).1 =
      handedOn c.index (ruleExpression? c.step.configured) := by
  rw [runOn_visit_rules, Compiled.ruleStep]
  cases ruleExpression? c.step.configured with
  | error e => rfl
  | ok o => cases o <;> rfl

/-- Each ending is that of the rules and the predicate it speaks of. -/
theorem Ends.handedOn_eq {room : Nat} {configured : PropertyMap} {position : Nat}
    {result : Except Failure (Option Element)} (hroom : room ≤ Json.nestingLimit)
    (h : Ends room configured position result) :
    handedOn position (ruleExpression? configured) = result := by
  have hok {text : String} {j : Json} (hjson : Json.readWithin room text.toList = .ok j) :
      Json.read text = .ok j := Json.readWithin_ok_of_le hroom hjson
  have herror {text : String} {e : Json.Refusal} (he : e ≠ .depth)
      (hjson : Json.readWithin room text.toList = .error e) : Json.read text = .error e :=
    Json.readWithin_error_of_le hroom he hjson
  cases h with
  | noText h =>
    rw [ruleExpression?_of_parse_nil _ (parse_of_not_given h)]
    rfl
  | noRules h hjson =>
    rw [ruleExpression?_of_parse_nil _ (parse_of_list h (hok hjson))]
    rfl
  | notJson h hjson =>
    have hparse := parse_of_given h
    rw [herror (by simp) hjson] at hparse
    rw [ruleExpression?_of_parse_error _ hparse]
    rfl
  | longInteger h hjson =>
    have hparse := parse_of_given h
    rw [herror (by simp) hjson] at hparse
    rw [ruleExpression?_of_parse_error _ hparse]
    rfl
  | notList h hjson hlist =>
    rw [ruleExpression?_of_parse_error _ (parse_of_notList h (hok hjson) hlist)]
    rfl
  | incomplete h hjson hbefore hitem =>
    have hparse := (parse_of_list h (hok hjson)).trans (Rule.ofItems_incomplete hbefore hitem)
    rw [ruleExpression?_of_parse_error _ hparse]
    rfl
  | unknownPredicate h hjson hne hall hword =>
    obtain ⟨rules, hparse, hsome, -⟩ := exists_parse_of_complete h (hok hjson) hne hall
    have hnone : Predicate.ofWord? (predicateWord configured) = none := by
      cases hp : Predicate.ofWord? (predicateWord configured) with
      | none => rfl
      | some p => exact absurd (joins_iff.2 ⟨p, hp, rfl⟩) (hword _)
    rw [ruleExpression?_of_rules hparse hsome, hnone]
    rfl
  | joined h hjson hne hall hword =>
    obtain ⟨rules, hparse, hsome, htexts⟩ := exists_parse_of_complete h (hok hjson) hne hall
    obtain ⟨p, hp, rfl⟩ := joins_iff.1 hword
    rw [ruleExpression?_of_rules hparse hsome, hp, htexts]
    rfl

/-- One of the endings is there for rules that fit. -/
theorem exists_ends {room : Nat} {configured : PropertyMap} (hfits : Fits room configured)
    (position : Nat) : ∃ result, Ends room configured position result := by
  by_cases hgiven : ∃ text, Given configured text
  case neg => exact ⟨_, .noText fun text h => hgiven ⟨text, h⟩⟩
  obtain ⟨text, h⟩ := hgiven
  cases hjson : Json.readWithin room text.toList with
  | error e =>
    cases e with
    | fault fault => exact ⟨_, .notJson h hjson⟩
    | longInteger => exact ⟨_, .longInteger h hjson⟩
    | depth => exact absurd hjson (hfits text h)
  | ok j =>
    by_cases hlist : ∃ items, j = .arr items
    case neg => exact ⟨_, .notList h hjson fun items hj => hlist ⟨items, hj⟩⟩
    obtain ⟨items, rfl⟩ := hlist
    by_cases hall : ∀ item ∈ items, Rule.Complete item
    case neg =>
      have hsome : ∃ item ∈ items, ¬ Rule.Complete item := by simpa using hall
      obtain ⟨before, item, after, rfl, hitem, hbefore⟩ := exists_first hsome
      exact ⟨_, .incomplete h hjson (fun i hi => Classical.not_not.1 (hbefore i hi)) hitem⟩
    by_cases hne : items = []
    · exact ⟨_, .noRules h (hne ▸ hjson)⟩
    by_cases hword : ∃ operator, Joins (predicateWord configured) operator
    · obtain ⟨operator, hword⟩ := hword
      exact ⟨_, .joined h hjson hne hall hword⟩
    · exact ⟨_, .unknownPredicate h hjson hne hall fun operator hj => hword ⟨operator, hj⟩⟩

/-- A rule filter whose rules fit ends in exactly one way, which its rules decide before its
predicate does. What is reported names the position of the step, and of the items of the list the
first that is no rule; an integer of too many digits is not reported, it breaks the visit down. -/
theorem visit_rules_eq_iff_ends {room : Nat} (hroom : room ≤ Json.nestingLimit) (x : Context)
    (c : StepCursor) (w : Workspace) (hfits : Fits room c.step.configured) :
    (∀ result, (((ruleVisitor x).visit c).runOn w).1 = result ↔
      Ends room c.step.configured c.index result) ∧
    ∀ cause, (CompileError.rules c.index cause).message =
        "Rule filter step #" ++ toString c.index ++ ": " ++ cause.message ∧
      ∀ item, cause = .incomplete item →
        cause.message = "every rule needs a 'path' and an 'op', got " ++ item.shown := by
  refine ⟨fun result => ?_, fun cause => ⟨rfl, ?_⟩⟩
  · rw [visit_rules]
    constructor
    · rintro rfl
      obtain ⟨result, h⟩ := exists_ends hfits c.index
      rwa [h.handedOn_eq hroom]
    · exact Ends.handedOn_eq hroom
  · rintro item rfl
    rfl

/-- One rule, which compares with an integer of so many digits. -/
def sevensChars (n : Nat) : List Char :=
  "[\x7b\"path\":\"a\",\"op\":\"==\",\"value\":".toList ++ List.replicate n '7' ++ "\x7d]".toList

def sevensRule (n : Nat) : String := String.ofList (sevensChars n)

def sevensStep (n : Nat) : StepCursor where
  index := 1
  step :=
    { kind := "rule-filter", configured := OrderedMap.ofList [("rules", sevensRule n)] }
  steps := []
  one_le_index := Nat.one_pos

theorem given_sevensStep_iff {n : Nat} {text : String} :
    Given (sevensStep n).step.configured text ↔ text = sevensRule n := by
  have hget : (sevensStep n).step.configured.get? "rules" = some (sevensRule n) := rfl
  constructor
  · rintro ⟨htext, -⟩
    exact (Option.some.inj (hget.symm.trans htext)).symm
  · intro htext
    refine ⟨htext ▸ hget, fun h => ?_⟩
    have hlist : (sevensRule n).toList = [] := by rw [← htext, h, String.toList_empty]
    rw [sevensRule, String.toList_ofList] at hlist
    exact absurd (List.append_eq_nil_iff.1 hlist).2 (by decide)

/-- An integer of three digits is read like any other value. -/
theorem ends_sevensStep :
    2 ≤ Json.nestingLimit ∧ Fits 2 (sevensStep 3).step.configured ∧
      Ends 2 (sevensStep 3).step.configured 1
        (.ok (some (.filter (Points.ofString "$\x7bbody.a\x7d == '777'")))) := by
  have hroom : 2 ≤ Json.nestingLimit := by decide
  have hread : (Json.readWithin 2 (sevensRule 3).toList).toOption.isSome = true := by
    decide +kernel
  have hfits : Fits 2 (sevensStep 3).step.configured := by
    intro text htext hdepth
    rw [given_sevensStep_iff.1 htext] at hdepth
    rw [hdepth] at hread
    cases hread
  have hexpression : (ruleExpression? (sevensStep 3).step.configured).toOption =
      some (some (Points.ofString "$\x7bbody.a\x7d == '777'")) := by
    decide +kernel
  refine ⟨hroom, hfits, ?_⟩
  refine ((visit_rules_eq_iff_ends hroom ⟨{}, ⟨⟨none, "A", none, []⟩, {}⟩⟩ (sevensStep 3) {}
    hfits).1 _).1 ?_
  rw [visit_rules, eq_ok_of_toOption hexpression]
  rfl

/-- Rules with an integer of too many digits are not what the reader takes for JSON, and the error
they end with is not that of the step. -/
theorem visit_longInteger :
    Json.read (sevensRule 5000) = .error .longInteger ∧
      Given (sevensStep 5000).step.configured (sevensRule 5000) ∧
      ∀ (x : Context) (w : Workspace),
        (((ruleVisitor x).visit (sevensStep 5000)).runOn w).1 =
          .error (.breakdown .longInteger) := by
  have hrefused : (match Json.readWithin Json.nestingLimit (sevensChars 5000) with
      | .error .longInteger => true
      | _ => false) = true := by
    decide +kernel
  have hread : Json.read (sevensRule 5000) = .error .longInteger := by
    rw [Json.read, sevensRule, String.toList_ofList]
    split at hrefused
    next h => exact h
    next => cases hrefused
  have hgiven := given_sevensStep_iff.2 (rfl : sevensRule 5000 = sevensRule 5000)
  refine ⟨hread, hgiven, fun x w => ?_⟩
  rw [visit_rules]
  exact Ends.handedOn_eq (Nat.le_refl _) (.longInteger hgiven hread)

end Filter

end RouteCompiler
