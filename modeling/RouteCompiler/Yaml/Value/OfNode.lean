import RouteCompiler.Yaml.Node.OfTokens
import RouteCompiler.Yaml.Scalar
import RouteCompiler.Yaml.Token.Scan

/-!
The value a document stands for. Scalars are read by tag; a mapping takes over the entries merged
into it, its own entries winning; a key that is a collection is refused. Collections are looked
into level by level, so of several errors the one on the shallowest level is reported. Looking into
a mapping settles it: its merges are carried out, and its key that may stand for the mapping's value
becomes plain text. A node that holds itself has no finite value; it is unfolded to a fixed depth,
deeper than any model looks.
-/

namespace RouteCompiler.Yaml

namespace Node

/-- The name of a node: its anchor, or that of the node an alias stands for. -/
def name : Node → Option String
  | .scalar a _ _ | .seq a _ _ | .map a _ _ => a
  | .alias n => some n

/-- The documents' anchored nodes by name. -/
abbrev Anchors := List (String × Node)

def resolve (env : Anchors) : Node → Node
  | .alias n => (env.lookup n).getD absent
  | n => n

def hasTag (tag : Tag) : Node → Bool
  | .scalar _ t _ => t == tag
  | _ => false

mutual
def count : Node → Nat
  | .scalar .. | .alias _ => 1
  | .seq _ _ items => countItems items + 1
  | .map _ _ entries => countEntries entries + 1

def countItems : List Node → Nat
  | [] => 0
  | n :: r => count n + countItems r

def countEntries : List (Node × Node) → Nat
  | [] => 0
  | (k, v) :: r => count k + count v + countEntries r
end

/-! ## Merging -/

def isMergeKey (env : Anchors) (k : Node) : Bool := (resolve env k).hasTag .merge

/-- The mappings that a value brings in when it is merged, the one whose entries come first in
front; only mappings and sequences of them can be merged. -/
def sources (env : Anchors) (v : Node) : Except Error (List Node) :=
  match resolve env v with
  | .map .. => .ok [v]
  | .seq _ _ items =>
    if items.all fun i => (resolve env i) matches .map .. then .ok items.reverse
    else .error .malformed
  | _ => .error .malformed

def entriesOf : Node → List (Node × Node)
  | .map _ _ entries => entries
  | _ => []

/-- The entries of a mapping, those merged into it first, and the names of the nodes that this
settles. What is being merged already, as `busy` says, brings in no more than its own entries. The
number bounds how deep merged mappings are merged into. -/
def merged (env : Anchors) :
    Nat → List String → List (Node × Node) → Except Error (List (Node × Node) × List String)
  | 0, _, _ => .ok ([], [])
  | f + 1, busy, entries => do
    let own := fun es : List (Node × Node) => es.filter fun e => !isMergeKey env e.1
    let parts ← (entries.filter fun e => isMergeKey env e.1).mapM fun e => do
      (← sources env e.2).mapM fun m => do
        let es := (resolve env m).entriesOf
        let way := e.2.name.toList ++ m.name.toList
        if way.any busy.contains then return (own es, [])
        else
          let (es, names) ← merged env f (way ++ busy) es
          return (es, m.name.toList ++ names)
    let texts := (own entries).filter fun e => (resolve env e.1).hasTag .value
    return (parts.flatten.flatMap Prod.fst ++ own entries,
      parts.flatten.flatMap Prod.snd ++ texts.flatMap (·.1.name.toList))

/-- The key that stands for a mapping's value as plain text. -/
def asText : Node → Node
  | .scalar a .value s => .scalar a .str s
  | n => n

/-- As many nodes as can be within each other where aliases are followed. -/
def depth (env : Anchors) (n : Node) : Nat :=
  n.count + env.foldl (fun total e => total + e.2.count) 0 + 1

/-- The entries of a mapping once it is settled, and what is settled with it. -/
def settle (env : Anchors) (n : Node) : Except Error (List (Node × Node) × List String) := do
  let (es, names) ← merged env (depth env n) n.name.toList n.entriesOf
  return (es.map fun e => (e.1.asText, e.2), n.name.toList ++ names)

/-- The node behind a name, as it is where the nodes of some names are settled. -/
def current (env : Anchors) (settled : List String) (n : Node) : Node :=
  let m := resolve env n
  if n.name.any settled.contains then
    match m with
    | .map a tag es => .map a tag ((settle env m).toOption.map Prod.fst |>.getD es)
    | m => m.asText
  else m

/-! ## Checking -/

/-- The tag makes a collection. -/
def isCollectionTag : Tag → Bool
  | .seq | .map | .set | .omap | .pairs => true
  | _ => false

def isCollection : Node → Bool
  | .scalar _ tag _ | .seq _ tag _ | .map _ tag _ => isCollectionTag tag
  | .alias _ => false

/-- The text of a scalar, or of a mapping with a key that stands for it. The number bounds the
mappings gone through. -/
def scalarText (env : Anchors) (settled : List String) : Nat → Node → Option Points
  | 0, _ => none
  | f + 1, n =>
    match current env settled n with
    | .scalar _ _ s => some s
    | .map _ _ entries => do
      let e ← entries.find? fun e => (current env settled e.1).hasTag .value
      scalarText env settled f e.2
    | _ => none

/-- A collection waits to be looked into. Any other node must have a value at once. -/
def atOnce (env : Anchors) (settled : List String) (n : Node) : Except Error Unit :=
  let n := current env settled n
  if n.isCollection then .ok ()
  else match n with
    | .scalar _ tag s => do discard (Scalar.value tag s)
    | .map _ .timestamp _ =>
      if (scalarText env settled (depth env n) n).isSome then .error .momentMapping
      else .error .malformed
    | .map _ tag _ =>
      match scalarText env settled (depth env n) n with
      | some s => do discard (Scalar.value tag s)
      | none => .error .malformed
    | _ => .error .malformed

/-- The names of the nodes seen and of those settled, and the collections still to look into. -/
structure Pending where
  seen : List String
  settled : List String
  queue : List Node

/-- Look at a node; a second look at an anchored node finds nothing new. -/
def touch (env : Anchors) (p : Pending) (n : Node) : Except Error Pending :=
  if n.name.any p.seen.contains then .ok p
  else do
    atOnce env p.settled n
    let found := if (current env p.settled n).isCollection then [resolve env n] else []
    return { p with seen := n.name.toList ++ p.seen, queue := p.queue ++ found }

def touchAll (env : Anchors) (p : Pending) : List Node → Except Error Pending
  | [] => .ok p
  | n :: r => do touchAll env (← touch env p n) r

/-- Entries of a mapping: keys must not be collections. -/
def touchEntries (env : Anchors) (p : Pending) : List (Node × Node) → Except Error Pending
  | [] => .ok p
  | (k, v) :: r => do
    let p ← touch env p k
    if (current env p.settled k).isCollection then .error .malformed
    else touchEntries env (← touch env p v) r

/-- Look into a collection, which must be of the kind its tag asks for. -/
def lookInto (env : Anchors) (p : Pending) (n : Node) : Except Error Pending :=
  match n with
  | .seq _ .seq items => touchAll env p items
  | .seq _ .omap items | .seq _ .pairs items =>
    items.foldlM (fun p i =>
      match current env p.settled i with
      | .map _ _ [(k, v)] => touchAll env p [k, v]
      | _ => .error .malformed) p
  | .map _ .map _ | .map _ .set _ => do
    let (es, names) ← settle env n
    touchEntries env { p with settled := names ++ p.settled } es
  | _ => .error .malformed

/-- Look into collections in the order they were found. -/
def lookAll (env : Anchors) : Nat → Pending → Except Error Unit
  | 0, _ => .ok ()
  | f + 1, p =>
    match p.queue with
    | [] => .ok ()
    | n :: r => do lookAll env f (← lookInto env { p with queue := r } n)

/-- Every part of the node has a value. -/
def check (n : Node) : Except Error Unit := do
  let env := n.anchored
  lookAll env (Nat.pow (n.count + 1) 4) (← touch env ⟨[], [], []⟩ n)

end Node

/-! ## Building -/

/-- A value together with the shape of the node it comes from, which is what merging asks for. -/
inductive Built
  | leaf (v : Value)
  | seq (v : Value) (items : List Built)
  | map (v : Value) (entries : List (Value × Value))
  deriving Inhabited

namespace Built

def value : Built → Value
  | .leaf v | .seq v _ | .map v _ => v

def entries : Built → List (Value × Value)
  | .map _ es => es
  | _ => []

/-- What merging this value adds to a mapping; of several mappings the first wins. -/
def merged : Built → List (Value × Value)
  | .seq _ items => items.reverse.flatMap entries
  | b => b.entries

/-- The value of a scalar; where one that stands for a mapping's value is built, it is a text. -/
def ofScalar (tag : Tag) (s : Points) : Value :=
  match tag with
  | .value => .text s
  | _ =>
    match Scalar.value tag s with
    | .ok v => v
    | .error _ => .null

def ofItems (tag : Tag) (items : List Built) : Built :=
  let v := match tag with
    | .omap | .pairs => .seq (items.flatMap fun i => i.entries.map fun e => .seq [e.1, e.2])
    | _ => .seq (items.map value)
  .seq v items

/-- The mapping with these entries; `scalar` is the text that may stand for it. -/
def ofEntries (tag : Tag) (scalar : Option Points) (entries : List (Value × Value)) : Built :=
  let es := Value.distinctEntries entries
  let v := match tag with
    | .map => .map es
    | .set => .set (es.map Prod.fst)
    | _ => ofScalar tag (scalar.getD [])
  .map v es

end Built

namespace Node

/-- Anchored nodes built so far, the latest first. -/
abbrev BuiltAnchors := List (String × Built)

/-- How often a node that holds itself is unfolded. -/
def unfoldings : Nat := 12

/-- Build a node that may hold itself: start from nothing and put each result in its own place. -/
def unfold (anchor : Option String) (recursive : Bool) (env : BuiltAnchors)
    (build : BuiltAnchors → Built × BuiltAnchors) : Built × BuiltAnchors :=
  match anchor with
  | none => build env
  | some a =>
    let (b, env') := if recursive then
        Nat.fold unfoldings (fun _ _ (r : Built × BuiltAnchors) => build ((a, r.1) :: env))
          (.leaf .null, env)
      else build env
    (b, (a, b) :: env')

mutual
def build (anchors : Anchors) (env : BuiltAnchors) : Node → Built × BuiltAnchors
  | .alias n => ((env.lookup n).getD (.leaf .null), env)
  | .scalar a tag s =>
    let b := .leaf (Built.ofScalar tag s)
    (b, a.toList.map (·, b) ++ env)
  | .seq a tag items =>
    unfold a (a.any (mentionsInItems · items)) env fun env =>
      let (bs, env) := buildItems anchors env items
      (Built.ofItems tag bs, env)
  | .map a tag entries =>
    unfold a (a.any (mentionsInEntries · entries)) env fun env =>
      let (merges, own, env) := buildEntries anchors env entries
      let n := Node.map none tag entries
      (Built.ofEntries tag (n.scalarText anchors [] (depth anchors n)) (merges ++ own), env)

def buildItems (anchors : Anchors) (env : BuiltAnchors) : List Node → List Built × BuiltAnchors
  | [] => ([], env)
  | n :: r =>
    let (b, env) := build anchors env n
    let (bs, env) := buildItems anchors env r
    (b :: bs, env)

/-- The entries merged into a mapping and its own. -/
def buildEntries (anchors : Anchors) (env : BuiltAnchors) :
    List (Node × Node) → List (Value × Value) × List (Value × Value) × BuiltAnchors
  | [] => ([], [], env)
  | (k, v) :: r =>
    let (kb, env) := build anchors env k
    let (vb, env) := build anchors env v
    let (merges, own, env) := buildEntries anchors env r
    if isMergeKey anchors k then (vb.merged ++ merges, own, env)
    else (merges, (kb.value, vb.value) :: own, env)
end

end Node

namespace Value

def ofNode (n : Node) : Except Error Value := do
  n.check
  return (n.build n.anchored []).1.value

/-- The value of a document; a document without content has the value null. -/
def read (s : String) : Except Error Value :=
  let (ts, failure) := scan s.toList
  match Node.ofTokens ts.toList failure with
  | .error e => .error e
  | .ok none => .ok .null
  | .ok (some n) => ofNode n

end Value
end RouteCompiler.Yaml
