import RouteCompiler.Text.Points
import RouteCompiler.Yaml.Letter

/-!
Quoted scalars, behind their opening quote. Between single quotes a quote is written twice; between
double quotes a backslash starts an escape. Line ends fold as in plain scalars, and spaces around
them are dropped. Escapes are taken one by one, so that two halves of a surrogate pair stay two.
-/

namespace RouteCompiler.Yaml

/-- Escapes of one character. -/
def escapes : List (Char × Char) :=
  [ ('0', '\x00'), ('a', '\x07'), ('b', '\x08'), ('t', '\x09'), ('\t', '\x09'), ('n', '\x0a'),
    ('v', '\x0b'), ('f', '\x0c'), ('r', '\x0d'), ('e', '\x1b'), (' ', ' '), ('"', '"'),
    ('\\', '\\'), ('/', '/'), ('N', '\x85'), ('_', '\xa0'), ('L', '\u2028'), ('P', '\u2029') ]

/-- Escapes by code point, with the number of hexadecimal digits. -/
def codeEscapes : List (Char × Nat) := [('x', 2), ('u', 4), ('U', 8)]

/-- The value of the `n` hexadecimal digits at the front. -/
def hexValue (n : Nat) (cs : List Char) : Option Nat :=
  let ds := cs.take n
  if ds.length < n then none
  else ds.foldlM (fun v d => (Text.hexValue? d).map (16 * v + ·)) 0

/-- Blank lines behind a line end, as the characters they read as, and the text of the next. -/
def quotedBreaks (cs : List Char) : Except Error (List Char × List Char) :=
  if atSeparator cs then .error .malformed
  else
    let r := cs.dropWhile isSpaceOrTab
    match _h : lineEnd? r with
    | some (b, r') => do
      let (bs, r'') ← quotedBreaks r'
      return (b :: bs, r'')
    | none => .ok ([], r)
termination_by cs.length
decreasing_by exact Nat.lt_of_lt_of_le (length_of_lineEnd? ‹_›) (length_dropWhile_le _ _)

/-- What blanks before `cs`, if any, and line ends read as. -/
def quotedGap (cs : List Char) : Except Error (List Char × List Char) :=
  let r := cs.dropWhile isSpaceOrTab
  match lineEnd? r with
  | some (b, r) => do
    let (bs, r) ← quotedBreaks r
    return (if b ≠ '\n' then b :: bs else if bs.isEmpty then [' '] else bs, r)
  | none => .ok (cs.takeWhile isSpaceOrTab, r)

/-- What an escape by code point stands for. -/
def codePoint (n : Nat) : Except Error Point :=
  if 0x80000000 ≤ n then .error .hugeCodePoint
  else if 0x110000 ≤ n then .error .codePoint
  else .ok (.ofNat n)

/-- The text an escape stands for, and what follows it. -/
def escape (cs : List Char) : Except Error (Points × List Char) :=
  match cs with
  | [] => .error .malformed
  | c :: r =>
    match escapes.lookup c with
    | some d => .ok ([.char d], r)
    | none =>
      match codeEscapes.lookup c with
      | some n =>
        match hexValue n r with
        | none => .error .malformed
        | some v => do return ([← codePoint v], r.drop n)
      | none =>
        match lineEnd? cs with
        | some (_, r) => do
          let (bs, r) ← quotedBreaks r
          return (bs.map .char, r)
        | none => .error .malformed

/-- Read up to the closing quote. -/
def quotedRest (double : Bool) (cs : List Char) (text : Points) :
    Except Error (Points × List Char) :=
  match cs with
  | [] => .error .malformed
  | c :: r =>
    if isGap c then do
      let (t, r') ← quotedGap cs
      if r'.isEmpty then .error .malformed
      else if _h : r'.length < r.length + 1 then quotedRest double r' (text ++ t.map .char)
      else .error .malformed
    else if double then
      if c = '"' then .ok (text, r)
      else if c = '\\' then do
        let (t, r') ← escape r
        if _h : r'.length < r.length + 1 then quotedRest double r' (text ++ t)
        else .error .malformed
      else quotedRest double r (text ++ [.char c])
    else if c = '\'' then
      match r with
      | '\'' :: r' => quotedRest double r' (text ++ [.char '\''])
      | _ => .ok (text, r)
    else quotedRest double r (text ++ [.char c])
termination_by cs.length
decreasing_by all_goals simp_all; try omega

end RouteCompiler.Yaml
