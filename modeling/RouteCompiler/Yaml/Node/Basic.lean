import RouteCompiler.Text.Points
import RouteCompiler.Yaml.Tag

/-!
The nodes of a YAML document. A node may carry an anchor, and an alias stands for the node with
that anchor, which may be one of the nodes around it. In a well-formed document every anchor has
one name of its own and comes before its aliases.
-/

namespace RouteCompiler.Yaml

inductive Node
  | scalar (anchor : Option String) (tag : Tag) (text : Points)
  | seq (anchor : Option String) (tag : Tag) (items : List Node)
  | map (anchor : Option String) (tag : Tag) (entries : List (Node × Node))
  | alias (name : String)
  deriving Repr, Inhabited

namespace Node

/-- The node that stands where nothing is written. -/
def absent : Node := .scalar none .null []

/-- Add an anchor to the names seen, none of which it may repeat. -/
def addAnchor (seen : List String) : Option String → Option (List String)
  | none => some seen
  | some a => if seen.contains a then none else some (a :: seen)

mutual
/-- The anchors seen up to the end of the node, if all anchors are new and all aliases known. -/
def anchors (seen : List String) : Node → Option (List String)
  | .scalar a _ _ => addAnchor seen a
  | .seq a _ items => do anchorsOfItems (← addAnchor seen a) items
  | .map a _ entries => do anchorsOfEntries (← addAnchor seen a) entries
  | .alias n => if seen.contains n then some seen else none

def anchorsOfItems (seen : List String) : List Node → Option (List String)
  | [] => some seen
  | n :: r => do anchorsOfItems (← anchors seen n) r

def anchorsOfEntries (seen : List String) : List (Node × Node) → Option (List String)
  | [] => some seen
  | (k, v) :: r => do anchorsOfEntries (← anchors (← anchors seen k) v) r
end

mutual
/-- The node or one inside it is an alias of this name. -/
def mentions (name : String) : Node → Bool
  | .scalar .. => false
  | .seq _ _ items => mentionsInItems name items
  | .map _ _ entries => mentionsInEntries name entries
  | .alias n => n == name

def mentionsInItems (name : String) : List Node → Bool
  | [] => false
  | n :: r => mentions name n || mentionsInItems name r

def mentionsInEntries (name : String) : List (Node × Node) → Bool
  | [] => false
  | (k, v) :: r => mentions name k || mentions name v || mentionsInEntries name r
end

mutual
/-- The anchored nodes inside a node, itself included. -/
def anchored : Node → List (String × Node)
  | .scalar a t s => a.toList.map (·, .scalar a t s)
  | .seq a t items => a.toList.map (·, .seq a t items) ++ anchoredInItems items
  | .map a t entries => a.toList.map (·, .map a t entries) ++ anchoredInEntries entries
  | .alias _ => []

def anchoredInItems : List Node → List (String × Node)
  | [] => []
  | n :: r => anchored n ++ anchoredInItems r

def anchoredInEntries : List (Node × Node) → List (String × Node)
  | [] => []
  | (k, v) :: r => anchored k ++ anchored v ++ anchoredInEntries r
end

end Node
end RouteCompiler.Yaml
