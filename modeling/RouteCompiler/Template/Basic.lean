/-!
Templates: text with places to fill in. An expression in a template looks names up and picks
members; statements choose between parts and repeat a part for every item of a value.
-/

namespace RouteCompiler.Template

inductive Expr
  | name (n : String)
  | text (s : String)
  | number (n : Nat)
  | truth (b : Bool)
  | null
  /-- A member picked by a name behind a point. -/
  | member (of : Expr) (n : String)
  /-- A member picked by a value in brackets. -/
  | item (of : Expr) (key : Expr)
  | filtered (e : Expr) (filter : String)
  | not (e : Expr)
  | and (a b : Expr)
  | or (a b : Expr)
  deriving DecidableEq, Repr, Inhabited

inductive Node
  | text (s : String)
  | output (e : Expr)
  | choice (test : Expr) (thenDo elseDo : List Node)
  /-- A part for every item; another part if there is no item. -/
  | each (name : String) (source : Expr) (body ifNone : List Node)
  deriving Repr, Inhabited

/-- The names of the filter that makes text safe between tags. -/
def escapeFilters : List String := ["e", "escape"]

def knownFilters : List String := escapeFilters

/-- Filters an expression uses. -/
def Expr.filters : Expr → List String
  | .name _ | .text _ | .number _ | .truth _ | .null => []
  | .member e _ | .not e => e.filters
  | .item a b | .and a b | .or a b => a.filters ++ b.filters
  | .filtered e f => f :: e.filters

mutual
/-- Filters used outside of choices. They have to be known before anything is rendered; within a
choice it is enough that an unknown one is not reached. -/
def Node.filters (inChoice : Bool) : Node → List String
  | .text _ => []
  | .output e => if inChoice then [] else e.filters
  | .choice _ thenDo elseDo => filtersOf true thenDo ++ filtersOf true elseDo
  | .each _ source body ifNone =>
    (if inChoice then [] else source.filters) ++ filtersOf false body ++ filtersOf false ifNone

def filtersOf (inChoice : Bool) : List Node → List String
  | [] => []
  | n :: r => n.filters inChoice ++ filtersOf inChoice r
end

end RouteCompiler.Template
