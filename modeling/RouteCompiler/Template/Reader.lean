import RouteCompiler.Template.Basic
import RouteCompiler.Template.Lexeme

/-!
Templates read from their pieces. In an expression `not` binds stronger than `and`, and that
stronger than `or`; members and filters bind strongest.
-/

namespace RouteCompiler.Template

/-! ## Expressions -/

/-- Members behind a value. -/
abbrev Rest := List Token

/-- The name of a filter, which may have points in it. -/
def filterName : String → List Token → String × Rest
  | f, .sign '.' :: .word w :: r => filterName (f ++ "." ++ w) r
  | f, r => (f, r)

/-- Filters behind a value. -/
def filters? : Nat → Expr → List Token → Option (Expr × Rest)
  | 0, _, _ => none
  | n + 1, e, .sign '|' :: .word w :: r =>
    let (f, r) := filterName w r
    filters? n (.filtered e f) r
  | _ + 1, _, .sign '|' :: _ => none
  | _ + 1, e, r => some (e, r)

/-- A text in quotes directly behind another belongs to it. -/
def textLiteral : String → List Token → String × Rest
  | s, .text t :: r => textLiteral (s ++ t) r
  | s, r => (s, r)

def ofWord (w : String) : Expr :=
  if w = "true" || w = "True" then .truth true
  else if w = "false" || w = "False" then .truth false
  else if w = "none" || w = "None" then .null
  else .name w

mutual
def disjunction? : Nat → List Token → Option (Expr × Rest)
  | 0, _ => none
  | n + 1, ts => do
    let (a, r) ← conjunction? n ts
    disjuncts? n a r

def disjuncts? : Nat → Expr → List Token → Option (Expr × Rest)
  | 0, _, _ => none
  | n + 1, a, .word "or" :: r => do
    let (b, r) ← conjunction? n r
    disjuncts? n (.or a b) r
  | _ + 1, a, r => some (a, r)

def conjunction? : Nat → List Token → Option (Expr × Rest)
  | 0, _ => none
  | n + 1, ts => do
    let (a, r) ← negation? n ts
    conjuncts? n a r

def conjuncts? : Nat → Expr → List Token → Option (Expr × Rest)
  | 0, _, _ => none
  | n + 1, a, .word "and" :: r => do
    let (b, r) ← negation? n r
    conjuncts? n (.and a b) r
  | _ + 1, a, r => some (a, r)

def negation? : Nat → List Token → Option (Expr × Rest)
  | 0, _ => none
  | n + 1, .word "not" :: r => do
    let (e, r) ← negation? n r
    return (.not e, r)
  | n + 1, ts => do
    let (e, r) ← primary? n ts
    let (e, r) ← members? n e r
    filters? n e r

def primary? : Nat → List Token → Option (Expr × Rest)
  | 0, _ => none
  | _ + 1, .word w :: r => some (ofWord w, r)
  | _ + 1, .text s :: r =>
    let (s, r) := textLiteral s r
    some (.text s, r)
  | _ + 1, .number k :: r => some (.number k, r)
  | n + 1, .sign '(' :: r => do
    match ← disjunction? n r with
    | (e, .sign ')' :: r) => return (e, r)
    | _ => none
  | _ + 1, _ => none

def members? : Nat → Expr → List Token → Option (Expr × Rest)
  | 0, _, _ => none
  | n + 1, e, .sign '.' :: .word w :: r => members? n (.member e w) r
  | n + 1, e, .sign '.' :: .number k :: r => members? n (.item e (.number k)) r
  | n + 1, e, .sign '[' :: r => do
    match ← disjunction? n r with
    | (k, .sign ']' :: r) => members? n (.item e k) r
    | _ => none
  | _ + 1, _, .sign '.' :: _ => none
  | _ + 1, e, r => some (e, r)
end

/-- Read an expression from the front of the tokens. -/
def Expr.ofFront? (ts : List Token) : Option (Expr × Rest) :=
  disjunction? (8 * (ts.length + 1)) ts

/-- Read an expression from all tokens. -/
def Expr.ofTokens? (ts : List Token) : Option Expr := do
  match ← Expr.ofFront? ts with
  | (e, []) => return e
  | _ => none

/-! ## Statements -/

/-- An expression that ends a statement, perhaps with a colon. -/
def Expr.ofStatement? (ts : List Token) : Option Expr := do
  match ← Expr.ofFront? ts with
  | (e, []) | (e, [.sign ':']) => return e
  | _ => none

inductive Statement
  | choose (test : Expr)
  | chooseElse (test : Expr)
  | otherwise
  | endChoice
  | repeated (name : String) (source : Expr)
  | endRepeated
  deriving DecidableEq, Repr

def Statement.ofTokens? : List Token → Option Statement
  | .word "if" :: r => (Expr.ofStatement? r).map .choose
  | .word "elif" :: r => (Expr.ofStatement? r).map .chooseElse
  | [.word "else"] | [.word "else", .sign ':'] => some .otherwise
  | [.word "endif"] => some .endChoice
  | .word "for" :: .word v :: .word "in" :: r => (Expr.ofStatement? r).map (.repeated v)
  | [.word "endfor"] => some .endRepeated
  | _ => none

/-- What a part of a template stopped at, and the pieces behind it; nothing, at the end. -/
abbrev Stop := Option (Statement × List Piece)

mutual
/-- Read nodes up to a statement that begins none. -/
def nodes? : Nat → List Piece → Option (List Node × Stop)
  | 0, _ => none
  | _ + 1, [] => some ([], none)
  | n + 1, .text s :: r => do
    let (ns, stop) ← nodes? n r
    return (.text (String.ofList s) :: ns, stop)
  | n + 1, .output ts :: r => do
    let e ← Expr.ofTokens? ts
    let (ns, stop) ← nodes? n r
    return (.output e :: ns, stop)
  | n + 1, .statement ts :: r => do
    match ← Statement.ofTokens? ts with
    | .choose test => do
      let (node, r) ← choice? n test r
      let (ns, stop) ← nodes? n r
      return (node :: ns, stop)
    | .repeated v source => do
      match ← nodes? n r with
      | (body, some (.endRepeated, r)) => do
        let (ns, stop) ← nodes? n r
        return (.each v source body [] :: ns, stop)
      | (body, some (.otherwise, r)) => do
        match ← nodes? n r with
        | (ifNone, some (.endRepeated, r)) => do
          let (ns, stop) ← nodes? n r
          return (.each v source body ifNone :: ns, stop)
        | _ => none
      | _ => none
    | s => return ([], some (s, r))

/-- Read the parts of a choice, behind its test. -/
def choice? : Nat → Expr → List Piece → Option (Node × List Piece)
  | 0, _, _ => none
  | n + 1, test, r => do
    match ← nodes? n r with
    | (thenDo, some (.endChoice, r)) => return (.choice test thenDo [], r)
    | (thenDo, some (.chooseElse test', r)) => do
      let (node, r) ← choice? n test' r
      return (.choice test thenDo [node], r)
    | (thenDo, some (.otherwise, r)) =>
      match ← nodes? n r with
      | (elseDo, some (.endChoice, r)) => return (.choice test thenDo elseDo, r)
      | _ => none
    | _ => none
end

/-- Read a template from its text, whose lines end with line feeds. -/
def read? (cs : List Char) : Option (List Node) := do
  let ps ← Piece.ofText? cs
  match ← nodes? (2 * ps.length + 2) ps with
  | (ns, none) => return ns
  | _ => none

end RouteCompiler.Template
