import RouteCompiler.Yaml.Node.Basic
import RouteCompiler.Yaml.Token.Basic

/-!
The node that a list of tokens writes, by descent along the grammar: each function reads one
construct from the front and returns what is behind it.
-/

namespace RouteCompiler.Yaml

/-- What the tokens of a document are read with: what its tag handles stand for, and the error that
has cut the tokens short, if there is one. -/
structure Reading where
  handles : List (String × String)
  cut : Option Error

def defaultHandles : List (String × String) := [("!", "!"), ("!!", Tag.root)]

namespace Reading

/-- The error where other tokens were expected. -/
def refuse {α : Type} (g : Reading) : List Token → Except Error α
  | [] => .error (g.cut.getD .malformed)
  | _ :: _ => .error .malformed

/-- To go on it has to be known which token comes next, or that none does. -/
def next (g : Reading) (ts : List Token) : Except Error Unit :=
  match ts, g.cut with
  | [], some e => .error e
  | _, _ => .ok ()

/-- The full name of a tag. -/
def fullTag (g : Reading) (t : WrittenTag) : Except Error String :=
  match t.handle with
  | none => .ok t.suffix
  | some h =>
    match g.handles.lookup h with
    | some s => .ok (s ++ t.suffix)
    | none => .error .malformed

/-- An anchor and a tag in front of a node, in either order. -/
structure Properties where
  anchor : Option String
  tag : Option String

def properties (g : Reading) (ts : List Token) : Except Error (Properties × List Token) :=
  match ts with
  | .anchor a :: .tag t :: r => do return (⟨some a, some (← g.fullTag t)⟩, r)
  | .anchor a :: r => .ok (⟨some a, none⟩, r)
  | .tag t :: .anchor a :: r => do return (⟨some a, some (← g.fullTag t)⟩, r)
  | .tag t :: r => do
    g.next r
    return (⟨none, some (← g.fullTag t)⟩, r)
  | _ => .ok (⟨none, none⟩, ts)

/-- The tag of a collection: its own, unless that is missing or the mark alone. -/
def collectionTag (p : Properties) (default : Tag) : Tag :=
  match p.tag with
  | none => default
  | some t => if t = "!" then default else Tag.ofUri t

/-- The tag of a scalar: the mark alone makes its text decide, as for plain text. -/
def scalarTag (p : Properties) (text : Points) (plain : Bool) : Tag :=
  match p.tag with
  | none => if plain then Tag.ofPlain text.toList else .str
  | some t => if t = "!" then Tag.ofMarked text.toList else Tag.ofUri t

/-- The node of properties without content. -/
def emptyNode (p : Properties) : Node := .scalar p.anchor (scalarTag p [] true) []

mutual
/-- Read a node. In block context block collections may start; an indentless sequence may only
follow a key or its value. The number bounds the nodes and entries opened so far. -/
def node (g : Reading) (block indentless : Bool) :
    Nat → List Token → Except Error (Node × List Token)
  | 0, _ => .error .malformed
  | _, .alias n :: r => .ok (.alias n, r)
  | f + 1, ts => do
    let (p, ts) ← g.properties ts
    match ts with
    | .scalar text plain :: r => return (.scalar p.anchor (scalarTag p text plain) text, r)
    | .flowSeqStart :: r => do
      let (items, r) ← flowItems g true f r
      return (.seq p.anchor (collectionTag p .seq) items, r)
    | .flowMapStart :: r => do
      let (entries, r) ← flowEntries g true f r
      return (.map p.anchor (collectionTag p .map) entries, r)
    | _ =>
      match block, indentless, ts with
      | _, true, .blockEntry :: _ => do
        let (items, r) ← indentlessItems g f ts
        return (.seq p.anchor (collectionTag p .seq) items, r)
      | true, _, .blockSeqStart :: r => do
        let (items, r) ← blockItems g f r
        return (.seq p.anchor (collectionTag p .seq) items, r)
      | true, _, .blockMapStart :: r => do
        let (entries, r) ← blockEntries g f r
        return (.map p.anchor (collectionTag p .map) entries, r)
      | _, _, _ =>
        if p.anchor.isSome || p.tag.isSome then return (emptyNode p, ts) else g.refuse ts

def blockItems (g : Reading) : Nat → List Token → Except Error (List Node × List Token)
  | 0, _ => .error .malformed
  | _, .blockEnd :: r => .ok ([], r)
  | f + 1, .blockEntry :: r => do
    let (n, r) ← match r with
      | .blockEntry :: _ | .blockEnd :: _ => .ok (Node.absent, r)
      | _ => node g true false f r
    let (ns, r) ← blockItems g f r
    return (n :: ns, r)
  | _, ts => g.refuse ts

def indentlessItems (g : Reading) : Nat → List Token → Except Error (List Node × List Token)
  | 0, _ => .error .malformed
  | f + 1, .blockEntry :: r => do
    let (n, r) ← match r with
      | .blockEntry :: _ | .key :: _ | .value :: _ | .blockEnd :: _ => .ok (Node.absent, r)
      | _ => node g true false f r
    let (ns, r) ← indentlessItems g f r
    return (n :: ns, r)
  | _, ts => .ok ([], ts)

def blockEntries (g : Reading) : Nat → List Token → Except Error (List (Node × Node) × List Token)
  | 0, _ => .error .malformed
  | _, .blockEnd :: r => .ok ([], r)
  | f + 1, .key :: r => do
    let (k, r) ← match r with
      | .key :: _ | .value :: _ | .blockEnd :: _ => .ok (Node.absent, r)
      | _ => node g true true f r
    let (v, r) ← match r with
      | .value :: r =>
        match r with
        | .key :: _ | .value :: _ | .blockEnd :: _ => .ok (Node.absent, r)
        | _ => node g true true f r
      | _ => .ok (Node.absent, r)
    let (es, r) ← blockEntries g f r
    return ((k, v) :: es, r)
  | _, ts => g.refuse ts

/-- Items up to the closing bracket; all but the first stand behind a comma. An item may be a
mapping of one entry. -/
def flowItems (g : Reading) (first : Bool) :
    Nat → List Token → Except Error (List Node × List Token)
  | 0, _ => .error .malformed
  | _, .flowSeqEnd :: r => .ok ([], r)
  | f + 1, ts => do
    let ts ← match first, ts with
      | true, _ => .ok ts
      | false, .flowEntry :: r => .ok r
      | false, _ => g.refuse ts
    match ts with
    | .flowSeqEnd :: r => return ([], r)
    | .key :: r => do
      let (k, r) ← match r with
        | .value :: _ | .flowEntry :: _ | .flowSeqEnd :: _ => .ok (Node.absent, r)
        | _ => node g false false f r
      let (v, r) ← match r with
        | .value :: r =>
          match r with
          | .flowEntry :: _ | .flowSeqEnd :: _ => .ok (Node.absent, r)
          | _ => node g false false f r
        | _ => .ok (Node.absent, r)
      let (ns, r) ← flowItems g false f r
      return (.map none .map [(k, v)] :: ns, r)
    | _ => do
      let (n, r) ← node g false false f ts
      let (ns, r) ← flowItems g false f r
      return (n :: ns, r)

/-- Entries up to the closing brace; an entry may lack its key or its value. -/
def flowEntries (g : Reading) (first : Bool) :
    Nat → List Token → Except Error (List (Node × Node) × List Token)
  | 0, _ => .error .malformed
  | _, .flowMapEnd :: r => .ok ([], r)
  | f + 1, ts => do
    let ts ← match first, ts with
      | true, _ => .ok ts
      | false, .flowEntry :: r => .ok r
      | false, _ => g.refuse ts
    match ts with
    | .flowMapEnd :: r => return ([], r)
    | .key :: r => do
      let (k, r) ← match r with
        | .value :: _ | .flowEntry :: _ | .flowMapEnd :: _ => .ok (Node.absent, r)
        | _ => node g false false f r
      let (v, r) ← match r with
        | .value :: r =>
          match r with
          | .flowEntry :: _ | .flowMapEnd :: _ => .ok (Node.absent, r)
          | _ => node g false false f r
        | _ => .ok (Node.absent, r)
      let (es, r) ← flowEntries g false f r
      return ((k, v) :: es, r)
    | _ => do
      let (k, r) ← node g false false f ts
      let (es, r) ← flowEntries g false f r
      return ((k, Node.absent) :: es, r)
end

/-- Directives in front of a document: one version at most, of the first generation, and every
handle once. -/
def directives (versioned : Bool) (handles : List (String × String)) :
    List Token → Except Error (List (String × String) × List Token)
  | .directive d :: r =>
    match d with
    | .version major _ =>
      if versioned || major ≠ 1 then .error .malformed else directives true handles r
    | .handle name stands =>
      if (handles.lookup name).isSome then .error .malformed
      else directives versioned (handles ++ [(name, stands)]) r
    | .other => directives versioned handles r
  | ts => .ok (handles ++ defaultHandles, ts)

/-- A document that begins with directives or with its mark. -/
def explicitDocument (cut : Option Error) (ts : List Token) : Except Error (Node × List Token) := do
  let (handles, ts) ← directives false [] ts
  let g : Reading := ⟨handles, cut⟩
  match ts with
  | .documentStart :: r =>
    match r with
    | [] | .directive _ :: _ | .documentStart :: _ | .documentEnd :: _ => return (Node.absent, r)
    | _ => g.node true false (2 * r.length + 2) r
  | _ => g.refuse ts

/-- The first document, if there is one, and the tokens behind it. -/
def firstDocument (cut : Option Error) (ts : List Token) :
    Except Error (Option Node × List Token) := do
  match ts with
  | [] => return (none, [])
  | .directive _ :: _ | .documentStart :: _ => do
    let (n, r) ← explicitDocument cut ts
    return (some n, r)
  | _ => do
    let (n, r) ← (⟨defaultHandles, cut⟩ : Reading).node true false (2 * ts.length + 2) ts
    return (some n, r)

def isDocumentEnd : Token → Bool
  | .documentEnd => true
  | _ => false

/-- Nothing but the marks of its end may stand behind a document. Directives are read before it
shows that another one follows. -/
def documentsEnd (cut : Option Error) (ts : List Token) : Except Error Unit := do
  match ts.dropWhile isDocumentEnd, cut with
  | [], none => return
  | r, _ => do
    let (handles, r) ← directives false [] r
    (⟨handles, cut⟩ : Reading).refuse r

end Reading

/-- Anchors are new and aliases known, as far as the tokens show. An anchor counts where a node is
seen to begin, which takes a token behind its properties. -/
def namesFit (seen : List String) : List Token → Bool
  | [] => true
  | .anchor a :: r =>
    match r with
    | [] | [.tag _] => true
    | _ => !seen.contains a && namesFit (a :: seen) r
  | .alias n :: r => seen.contains n && namesFit seen r
  | _ :: r => namesFit seen r

/-- The node of the only document of a text, if the text has one. Where the tokens are cut short,
that is the error unless they have shown another one before. -/
def Node.ofTokens (ts : List Token) (cut : Option Error) : Except Error (Option Node) :=
  if cut.isSome && !namesFit [] ts then .error .malformed
  else do
    let (n, r) ← Reading.firstDocument cut ts
    Reading.documentsEnd cut r
    if n.all fun n => (n.anchors []).isSome then return n else .error .malformed

end RouteCompiler.Yaml
