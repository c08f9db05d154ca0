import RouteCompiler.Json.Reader
import RouteCompiler.Visitor.Basic

/-!
Rules of a filter: each compares a path in the message body with a value. They are written as a
JSON list of objects and joined by one operator.
-/

namespace RouteCompiler

structure Rule where
  path : Json
  op : Json
  value : Json
  deriving Inhabited

namespace Rule

/-- An object with a path and an operator; without a value the rule compares with the empty text. -/
def ofJson? (j : Json) : Option Rule := do
  let path ← j.member? "path"
  let op ← j.member? "op"
  return ⟨path, op, (j.member? "value").getD (.str "")⟩

/-- The rule of an object whose path and operator say something. -/
def complete? (j : Json) : Option Rule := (ofJson? j).filter fun r => r.path.holds && r.op.holds

def escapeQuotes (s : Points) : Points :=
  s.flatMap fun p => if p = .char '\'' then [.char '\\', p] else [p]

def expression (r : Rule) : Points :=
  "$\x7bbody." ++ r.path.toText ++ "\x7d " ++ r.op.toText ++ " '" ++
    escapeQuotes r.value.toText ++ "'"

/-- Every item as a rule, or the first item that is none. -/
def ofItems : List Json → Except RuleFailure (List Rule)
  | [] => .ok []
  | j :: rest =>
    match complete? j with
    | none => .error (.wrong (.incomplete j))
    | some r => (r :: ·) <$> ofItems rest

/-- The rules of a text; no text or an empty one has none. Of the ways in which a text cannot be
read as JSON only a fault is reported as such. -/
def parse (raw : Option String) : Except RuleFailure (List Rule) :=
  match raw.filter fun t => !t.isEmpty with
  | none => .ok []
  | some t =>
    match Json.read t with
    | .error (.fault f) => .error (.wrong (.notJson (f.message t.toList)))
    | .error .longInteger => .error (.breakdown .longInteger)
    | .error .depth => .error (.breakdown .nesting)
    | .ok (.arr items) => ofItems items
    | .ok _ => .error (.wrong .notList)

end Rule

inductive Predicate
  | and
  | or
  deriving DecidableEq, Repr

namespace Predicate

/-- The predicate of a word in upper case. -/
def ofWord? (w : String) : Option Predicate :=
  if w = "AND" then some and else if w = "OR" then some or else none

def operator : Predicate → String
  | and => " && "
  | or => " || "

end Predicate
end RouteCompiler
