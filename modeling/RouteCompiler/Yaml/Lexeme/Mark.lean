import RouteCompiler.Yaml.Letter

/-!
Anchors, tags and directives. A tag is written in full between angle brackets, or as a handle and a
suffix; a directive may declare what a handle stands for.
-/

namespace RouteCompiler.Yaml

/-- The name behind an anchor or alias mark. -/
def anchorName (cs : List Char) : Except Error (String × List Char) :=
  let name := cs.takeWhile isNameChar
  let r := cs.dropWhile isNameChar
  if name.isEmpty then .error .malformed
  else if endsOr (fun c => isGap c || "?:,]\x7d%@\x60".toList.contains c) r then
    .ok (String.ofList name, r)
  else .error .malformed

/-- Characters of a tag's suffix. -/
def isUriChar (c : Char) : Bool := isNameChar c || ";/?:@&=+$,.!~*'()[]%".toList.contains c

/-- The bytes of the percent escapes at the front. -/
def percentBytes (cs : List Char) : Except Error (List UInt8 × List Char) :=
  match cs with
  | '%' :: a :: b :: r =>
    match Text.hexValue? a, Text.hexValue? b with
    | some a, some b => do
      let (bs, r) ← percentBytes r
      return (UInt8.ofNat (16 * a + b) :: bs, r)
    | _, _ => .error .malformed
  | '%' :: _ => .error .malformed
  | cs => .ok ([], cs)

/-- Read a suffix, percent escapes standing for the bytes of UTF-8. -/
def tagUriRest (cs text : List Char) : Except Error (List Char × List Char) :=
  match cs with
  | [] => .ok (text, [])
  | c :: r =>
    if c = '%' then
      match percentBytes cs with
      | .error e => .error e
      | .ok (bytes, r') =>
        match String.fromUTF8? ⟨bytes.toArray⟩ with
        | some s =>
          if _h : r'.length < r.length + 1 then tagUriRest r' (text ++ s.toList)
          else .error .malformed
        | none => .error .malformed
    else if isUriChar c then tagUriRest r (text ++ [c])
    else .ok (text, cs)
termination_by cs.length
decreasing_by all_goals simp_all

def tagUri (cs : List Char) : Except Error (String × List Char) :=
  match cs with
  | [] => .error .malformed
  | c :: _ =>
    if isUriChar c then do
      let (s, r) ← tagUriRest cs []
      return (String.ofList s, r)
    else .error .malformed

/-- A handle: one exclamation mark, or two with name characters between them. -/
def tagHandle (cs : List Char) : Except Error (String × List Char) :=
  match cs with
  | '!' :: r =>
    if r.head? = some ' ' then .ok ("!", r)
    else
      let name := r.takeWhile isNameChar
      match r.dropWhile isNameChar with
      | '!' :: r' => .ok (String.ofList ('!' :: name ++ ['!']), r')
      | _ => .error .malformed
  | _ => .error .malformed

/-- A tag as it is written: with the handle that its suffix is to be joined to, if any. -/
structure WrittenTag where
  handle : Option String
  suffix : String
  deriving DecidableEq, Repr

/-- The handle of a tag that has one of its own: whether a second mark comes before a space. -/
def hasNamedHandle : List Char → Bool
  | [] => false
  | c :: r => if isSpaceOrBreak c then false else c = '!' || hasNamedHandle r

/-- Read a tag behind its exclamation mark. -/
def writtenTag (cs : List Char) : Except Error (WrittenTag × List Char) := do
  let (t, r) ← show Except Error (WrittenTag × List Char) from
    match cs with
    | '<' :: r => do
      let (s, r) ← tagUri r
      match r with
      | '>' :: r => return (⟨none, s⟩, r)
      | _ => .error .malformed
    | _ =>
      if endsOr isGap cs then .ok (⟨none, "!"⟩, cs)
      else do
        let (h, r) ← if hasNamedHandle cs then tagHandle ('!' :: cs) else .ok ("!", cs)
        let (s, r) ← tagUri r
        return (⟨some h, s⟩, r)
  if endsOr isSpaceOrBreak r then return (t, r) else .error .malformed

inductive Directive
  | version (major minor : Nat)
  | handle (name stands : String)
  | other
  deriving DecidableEq, Repr

def isAsciiDigit (c : Char) : Bool := '0' ≤ c && c ≤ '9'

def asciiNumber (cs : List Char) : Except Error (Nat × List Char) :=
  let ds := cs.takeWhile isAsciiDigit
  if ds.isEmpty then .error .malformed
  else .ok (ds.foldl (fun n d => 10 * n + (d.toNat - 48)) 0, cs.dropWhile isAsciiDigit)

def versionDirective (cs : List Char) : Except Error (Directive × List Char) := do
  let (major, r) ← asciiNumber (cs.dropWhile (· = ' '))
  match r with
  | '.' :: r => do
    let (minor, r) ← asciiNumber r
    if endsOr isSpaceOrBreak r then return (.version major minor, r) else .error .malformed
  | _ => .error .malformed

def handleDirective (cs : List Char) : Except Error (Directive × List Char) := do
  let (h, r) ← tagHandle (cs.dropWhile (· = ' '))
  if r.head? ≠ some ' ' then .error .malformed
  else
    let (s, r) ← tagUri (r.dropWhile (· = ' '))
    if endsOr isSpaceOrBreak r then return (.handle h s, r) else .error .malformed

/-- Read a directive behind its percent sign, up to the next line. -/
def directive (cs : List Char) : Except Error (Directive × List Char) := do
  let name := cs.takeWhile isNameChar
  let r := cs.dropWhile isNameChar
  if name.isEmpty || !endsOr isSpaceOrBreak r then .error .malformed
  else
    let (d, r) ← match String.ofList name with
      | "YAML" => versionDirective r
      | "TAG" => handleDirective r
      | _ => .ok (.other, r.dropWhile (!isBreak ·))
    return (d, ← finishLine r)

end RouteCompiler.Yaml
