import RouteCompiler.Yaml.Cursor
import RouteCompiler.Yaml.Token.Basic
import RouteCompiler.Yaml.Lexeme.Plain
import RouteCompiler.Yaml.Lexeme.Quoted
import RouteCompiler.Yaml.Lexeme.Block

/-!
Splitting a text into tokens. A scalar, alias, anchor, tag or flow collection may turn out to be a
key when a colon follows; it is remembered as a candidate, and the colon puts a `key` token in
front of it. A candidate lapses at the end of its line or after 1024 characters. Tokens are handed
on one by one, and none is as long as a key may still have to be put in front of it.
-/

namespace RouteCompiler.Yaml

/-- A place where a key without its mark may have started. One that is required must be followed
by its colon. -/
structure Candidate where
  required : Bool
  position : Nat
  index : Nat
  line : Nat
  column : Nat
  deriving Repr

/-- The state of a scan: tokens so far, the candidate of every open flow collection and, last, of
the block level, the indentation of the open block collections, and whether a key may start
here. -/
structure Scan where
  cursor : Cursor
  tokens : Array Token
  candidates : List (Option Candidate)
  indent : Int
  outer : List Int
  keyAllowed : Bool
  deriving Repr

namespace Scan

def start (cs : List Char) : Scan := ⟨Cursor.start cs, #[], [none], -1, [], true⟩

def inFlow (s : Scan) : Bool := 1 < s.candidates.length

def push (s : Scan) (t : Token) : Scan := { s with tokens := s.tokens.push t }

/-- Put tokens before the one at position `p`. -/
def putAt (s : Scan) (p : Nat) (ts : Array Token) : Scan :=
  { s with tokens := s.tokens.extract 0 p ++ ts ++ s.tokens.extract p s.tokens.size }

def moveTo (s : Scan) (rest : List Char) : Scan := { s with cursor := s.cursor.moveTo rest }

/-! ## Indentation -/

/-- Close block collections indented deeper than `column`. -/
def closeTo (column : Int) (s : Scan) : (outer : List Int) → Scan
  | [] => { s with outer := [] }
  | i :: r =>
    if column < s.indent then closeTo column { s.push .blockEnd with indent := i } r
    else { s with outer := i :: r }

def unwind (column : Int) (s : Scan) : Scan := if s.inFlow then s else closeTo column s s.outer

/-- Open a block collection at `column`, if that is deeper than the current one. -/
def opens (s : Scan) (column : Nat) : Bool := s.indent < column

def indentTo (s : Scan) (column : Nat) : Scan :=
  { s with outer := s.indent :: s.outer, indent := column }

/-! ## Candidates -/

def lapsed (k : Cursor) (c : Candidate) : Bool := c.line ≠ k.line || 1024 < k.index - c.index

/-- Forget candidates that have lapsed. -/
def dropLapsed (s : Scan) : Except Error Scan :=
  let old := fun c : Option Candidate => c.any (lapsed s.cursor)
  if s.candidates.any fun c => old c && c.any (·.required) then .error .malformed
  else .ok { s with candidates := s.candidates.map fun c => if old c then none else c }

def setCandidate (s : Scan) (c : Option Candidate) : Scan :=
  { s with candidates := c :: s.candidates.tail }

def candidate (s : Scan) : Option Candidate := s.candidates.head?.join

/-- Forget the candidate of the innermost collection. -/
def dropCandidate (s : Scan) : Except Error Scan :=
  if s.candidate.any (·.required) then .error .malformed else .ok (s.setCandidate none)

/-- Remember that a key may start here. -/
def markCandidate (s : Scan) : Except Error Scan :=
  if s.keyAllowed then do
    let required := !s.inFlow && s.indent == s.cursor.column
    let s ← s.dropCandidate
    let k := s.cursor
    return s.setCandidate (some ⟨required, s.tokens.size, k.index, k.line, k.column⟩)
  else .ok s

/-! ## Spaces and comments -/

/-- Skip spaces, comments and line ends; the flag says whether a line end was among them. -/
def skipBlank (cs : List Char) : Bool × List Char :=
  let r := skipComment (cs.dropWhile (· = ' '))
  match _h : lineEnd? r with
  | some (_, r') => (true, (skipBlank r').2)
  | none => (false, r)
termination_by cs.length
decreasing_by
  exact Nat.lt_of_lt_of_le (length_of_lineEnd? ‹_›)
    (Nat.le_trans (length_skipComment_le _) (length_dropWhile_le _ _))

/-- Move to the next token. A new line in block context allows a key. -/
def toToken (s : Scan) : Scan :=
  let cs := s.cursor.rest
  let cs := if s.cursor.index = 0 && cs.head? = some '\ufeff' then cs.tail else cs
  let (broke, r) := skipBlank cs
  { s.moveTo r with keyAllowed := s.keyAllowed || (broke && !s.inFlow) }

/-! ## Single tokens -/

/-- A document mark of three characters, or a directive: it closes everything. -/
def closeAll (s : Scan) : Except Error Scan := do
  let s ← (s.unwind (-1)).dropCandidate
  return { s with keyAllowed := false }

def directive (s : Scan) (r : List Char) : Except Error Scan := do
  let s ← s.closeAll
  let (d, r) ← Yaml.directive r
  return (s.push (.directive d)).moveTo r

def documentMark (s : Scan) (t : Token) : Except Error Scan := do
  let s ← s.closeAll
  return (s.push t).moveTo (s.cursor.rest.drop 3)

def openFlow (s : Scan) (t : Token) (r : List Char) : Except Error Scan := do
  let s ← s.markCandidate
  return ({ s with candidates := none :: s.candidates, keyAllowed := true }.push t).moveTo r

def closeFlow (s : Scan) (t : Token) (r : List Char) : Except Error Scan := do
  let s ← s.dropCandidate
  if s.inFlow then
    return ({ s with candidates := s.candidates.tail, keyAllowed := false }.push t).moveTo r
  else .error .malformed

def flowEntry (s : Scan) (r : List Char) : Except Error Scan := do
  let s ← s.dropCandidate
  return ({ s with keyAllowed := true }.push .flowEntry).moveTo r

/-- Where a block collection may start, start one with token `t` if the column is deeper. -/
def blockStart (s : Scan) (t : Token) : Except Error Scan :=
  if s.inFlow then .ok s
  else if !s.keyAllowed then .error .malformed
  else if s.opens s.cursor.column then .ok ((s.indentTo s.cursor.column).push t)
  else .ok s

def blockEntry (s : Scan) (r : List Char) : Except Error Scan := do
  let s ← s.blockStart .blockSeqStart
  let s ← s.dropCandidate
  return ({ s with keyAllowed := true }.push .blockEntry).moveTo r

def markedKey (s : Scan) (r : List Char) : Except Error Scan := do
  let s ← s.blockStart .blockMapStart
  let s ← s.dropCandidate
  return ({ s with keyAllowed := !s.inFlow }.push .key).moveTo r

/-- A colon. With a candidate it makes that a key; without, it belongs to a marked key. -/
def colon (s : Scan) (r : List Char) : Except Error Scan := do
  match s.candidate with
  | some c =>
    let s := s.setCandidate none
    let s := if !s.inFlow && s.opens c.column then
        (s.indentTo c.column).putAt c.position #[.blockMapStart, .key]
      else s.putAt c.position #[.key]
    return ({ s with keyAllowed := false }.push .value).moveTo r
  | none => do
    let s ← s.blockStart .blockMapStart
    let s ← ({ s with keyAllowed := !s.inFlow }).dropCandidate
    return (s.push .value).moveTo r

/-- Push a token that may be a key; none may follow it directly. -/
def pushNode (s : Scan) (t : Token) (r : List Char) : Except Error Scan := do
  let s ← s.markCandidate
  return ({ s with keyAllowed := false }.push t).moveTo r

def blockText (s : Scan) (folded : Bool) (r : List Char) : Except Error Scan := do
  let s ← s.dropCandidate
  let (text, r) ← blockScalar folded s.indent r
  return ({ s with keyAllowed := true }.push (.scalar (text.map .char) false)).moveTo r

def plainText (s : Scan) : Except Error Scan := do
  let s ← s.markCandidate
  let p := plain s.inFlow (s.indent + 1) s.cursor.rest
  return ({ s with keyAllowed := p.crossed }.push (.scalar (p.text.map .char) true)).moveTo p.rest

/-- A plain scalar may start here. -/
def startsPlain (inFlow : Bool) (c : Char) (r : List Char) : Bool :=
  let joined := !endsOr isGap r
  !(isGap c || "-?:,[]\x7b\x7d#&*!|>'\"%@\x60".toList.contains c) ||
    (joined && (c = '-' || (!inFlow && (c = '?' || c = ':'))))

/-- Read the token at character `c`, with `r` behind it. -/
def token (s : Scan) (c : Char) (r : List Char) : Except Error Scan :=
  let atLineStart := s.cursor.column == 0
  let alone := endsOr isGap r
  if c = '%' && atLineStart then s.directive r
  else if c = '-' && atLineStart && atSeparator (c :: r) then s.documentMark .documentStart
  else if c = '.' && atLineStart && atSeparator (c :: r) then s.documentMark .documentEnd
  else if c = '[' then s.openFlow .flowSeqStart r
  else if c = '\x7b' then s.openFlow .flowMapStart r
  else if c = ']' then s.closeFlow .flowSeqEnd r
  else if c = '\x7d' then s.closeFlow .flowMapEnd r
  else if c = ',' then s.flowEntry r
  else if c = '-' && alone then s.blockEntry r
  else if c = '?' && (s.inFlow || alone) then s.markedKey r
  else if c = ':' && (s.inFlow || alone) then s.colon r
  else if c = '*' then do
    let (n, r) ← anchorName r
    s.pushNode (.alias n) r
  else if c = '&' then do
    let (n, r) ← anchorName r
    s.pushNode (.anchor n) r
  else if c = '!' then do
    let (t, r) ← writtenTag r
    s.pushNode (.tag t) r
  else if c = '|' && !s.inFlow then s.blockText false r
  else if c = '>' && !s.inFlow then s.blockText true r
  else if c = '\'' || c = '"' then do
    let (text, r) ← quotedRest (c = '"') r []
    s.pushNode (.scalar text false) r
  else if startsPlain s.inFlow c r then s.plainText
  else .error .malformed

/-- The tokens that can be handed on before more is read: those in front of the first candidate. -/
def ready (s : Scan) : Array Token :=
  let open? := fun c : Option Candidate => c.filter fun c => !lapsed s.cursor c
  let positions := (s.candidates.filterMap open?).map (·.position)
  s.tokens.extract 0 (positions.foldl min s.tokens.size)

/-- Read all tokens. A scan that fails keeps those that could be handed on before. -/
def run (s : Scan) : Array Token × Option Error :=
  match s.toToken.dropLapsed with
  | .error e => (s.ready, some e)
  | .ok t =>
    let t := t.unwind t.cursor.column
    match t.cursor.rest with
    | [] =>
      match (t.unwind (-1)).dropCandidate with
      | .error e => (s.ready, some e)
      | .ok t => (t.tokens, none)
    | c :: r =>
      match t.token c r with
      | .error e => (s.ready, some e)
      | .ok t =>
        if _h : t.cursor.rest.length < s.cursor.rest.length then t.run
        else (s.ready, some .malformed)
termination_by s.cursor.rest.length

end Scan

/-- The tokens of a text, and the error that cut them short, if any. -/
def scan (cs : List Char) : Array Token × Option Error :=
  if cs.all isAllowed then (Scan.start cs).run else (#[], some .malformed)

end RouteCompiler.Yaml
