import RouteCompiler.Text.Blank
import RouteCompiler.Text.Upper
import RouteCompiler.Visitor.Rule

/-!
Filter steps, with an expression ready made or compiled from rules.
-/

namespace RouteCompiler.Filter

def module : String := "filter"

/-- The visitor of steps with an expression; one of blanks alone counts as none. -/
def expressionVisitor : VisitorFactory := fun _ => .ofVisit fun c => do
  let e := Text.strip ((c.step.configured.get? "filter").getD "")
  if e.isEmpty then
    Compile.log .debug module s!"  [SKIP] Filter step #{c.index} has no expression"
    return none
  else return some (.filter e)

/-- The expression of a step's rules, if it has rules. Without rules the predicate does not
matter. -/
def ruleExpression? (configured : PropertyMap) : Except RuleFailure (Option Points) := do
  match ← Rule.parse (configured.get? "rules") with
  | [] => return none
  | rules =>
    let word := Text.upper ((configured.get? "predicate").getD "AND")
    match Predicate.ofWord? word with
    | none => .error (.wrong (.unknownPredicate word))
    | some p => return some (List.intercalate p.operator (rules.map Rule.expression))

def ruleVisitor : VisitorFactory := fun _ => .ofVisit fun c => do
  match ruleExpression? c.step.configured with
  | .error e => throw (e.at c.index)
  | .ok none =>
    Compile.log .debug module s!"  [SKIP] Rule filter step #{c.index} has no rules"
    return none
  | .ok (some e) => return some (.filter e)

end RouteCompiler.Filter
