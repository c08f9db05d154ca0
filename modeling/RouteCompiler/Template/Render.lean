import RouteCompiler.Template.Value

/-!
Rendering. Places are filled in with the plain text of a value, or with text that is safe between
tags where a template asks for that.
-/

namespace RouteCompiler.Template

/-- What the names in a template stand for; the first entry of a name counts. -/
abbrev Scope := List (String × Value)

def Expr.eval (scope : Scope) : Expr → Except Breakdown Value
  | .name n => .ok ((scope.lookup n).getD (.noName n))
  | .text s => .ok (.text s)
  | .number n => .ok (.int n)
  | .truth b => .ok (.truth b)
  | .null => .ok .null
  | .member e n => do (← e.eval scope).member n
  | .item e k => do
    let v ← e.eval scope
    v.item (← k.eval scope)
  | .filtered e f => do
    let v ← e.eval scope
    if escapeFilters.contains f then return v.escaped else throw .unknownFilterReached
  | .not e => do return .truth (!(← e.eval scope).holds)
  | .and a b => do
    let v ← a.eval scope
    if v.holds then b.eval scope else return v
  | .or a b => do
    let v ← a.eval scope
    if v.holds then return v else b.eval scope

/-- The text a value fills a place with. -/
def Value.output (safe : Bool) (v : Value) : List Char :=
  (if safe then v.escaped else v).toText.toList

/-- The name by which a repeated part asks for its position. -/
def loopName : String := "loop"

/-- The position of a repeated part among `size`; `i` counts from zero. -/
def loopPosition (i size : Nat) : Value :=
  .record "" "LoopContext" (some s!"<LoopContext {i + 1}/{size}>")
    [ ("index", .int (i + 1)), ("index0", .int i), ("revindex", .int (size - i : Nat)),
      ("revindex0", .int (size - i - 1 : Nat)), ("first", .truth (i == 0)),
      ("last", .truth (i + 1 == size)), ("length", .int size) ]
    []

mutual
def Node.render (safe : Bool) (scope : Scope) : Node → Except Breakdown (List Char)
  | .text s => .ok s.toList
  | .output e => do return (← e.eval scope).output safe
  | .choice test thenDo elseDo => do
    if (← test.eval scope).holds then renderAll safe scope thenDo else renderAll safe scope elseDo
  | .each name source body ifNone => do
    match ← (← source.eval scope).items with
    | [] => renderAll safe scope ifNone
    | items =>
      let parts ← items.zipIdx.mapM fun p =>
        renderAll safe ((name, p.1) :: (loopName, loopPosition p.2 items.length) :: scope) body
      return parts.flatten

/-- The texts of nodes, one behind the other. -/
def renderAll (safe : Bool) (scope : Scope) : List Node → Except Breakdown (List Char)
  | [] => .ok []
  | n :: r => do
    let a ← n.render safe scope
    return a ++ (← renderAll safe scope r)
end

end RouteCompiler.Template
