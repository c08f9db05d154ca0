import RouteCompiler.Text.Points
import RouteCompiler.Yaml.Style

/-!
Writing texts as scalars. Lines are broken behind column 80: in plain and single-quoted text at a
space that stands alone, in double-quoted text behind a backslash. Continuation lines start at a
given indentation.
-/

namespace RouteCompiler.Yaml.Written

def width : Nat := 80

def spaces (n : Nat) : List Char := List.replicate n ' '

/-- Write text that is plain or between single quotes, which are doubled inside. `column` is where
the next character goes and `previous` the one before it. -/
def folded (indent column : Nat) (previous : Char) : List Char → List Char
  | [] => []
  | c :: r =>
    let next := r.head?
    if c = ' ' then
      if previous ≠ ' ' && next.any (· ≠ ' ') && width < column then
        '\n' :: spaces indent ++ folded indent indent c r
      else ' ' :: folded indent (column + 1) c r
    else if c = '\n' then
      (if previous = '\n' then ['\n'] else ['\n', '\n']) ++
        if next = some '\n' then folded indent 0 c r
        else spaces indent ++ folded indent indent c r
    else if c = '\'' then '\'' :: '\'' :: folded indent (column + 2) c r
    else c :: folded indent (column + 1) c r

/-- Plain text has no quotes to double. -/
def plain (indent column : Nat) (previous : Char) : List Char → List Char
  | [] => []
  | c :: r =>
    if c = ' ' && previous ≠ ' ' && r.head?.any (· ≠ ' ') && width < column then
      '\n' :: spaces indent ++ plain indent indent c r
    else c :: plain indent (column + 1) c r

/-- Escapes of one letter between double quotes. -/
def letterEscapes : List (Char × Char) :=
  [ ('\x00', '0'), ('\x07', 'a'), ('\x08', 'b'), ('\x09', 't'), ('\x0a', 'n'), ('\x0b', 'v'),
    ('\x0c', 'f'), ('\x0d', 'r'), ('\x1b', 'e'), ('"', '"'), ('\\', '\\'), ('\x85', 'N'),
    ('\xa0', '_'), ('\u2028', 'L'), ('\u2029', 'P') ]

def upperHex (width n : Nat) : List Char := (Text.hexDigits width n).map Char.toUpper

/-- How a point is written between double quotes, if not as the character it is. -/
def escape? : Point → Option (List Char)
  | .half n => some ('\\' :: 'u' :: upperHex 4 (Point.firstHalf + n))
  | .char c =>
    match letterEscapes.lookup c with
    | some l => some ['\\', l]
    | none =>
      if 0x20 ≤ c.toNat && c.toNat ≤ 0x7e then none
      else if c.toNat ≤ 0xff then some ('\\' :: 'x' :: upperHex 2 c.toNat)
      else if c.toNat ≤ 0xffff then some ('\\' :: 'u' :: upperHex 4 c.toNat)
      else some ('\\' :: 'U' :: upperHex 8 c.toNat)

/-- Break the line behind a backslash. A space at the start of a line takes a backslash of its
own. -/
def lineBreak (indent : Nat) (next : Option Char) : List Char × Nat :=
  let b := '\\' :: '\n' :: spaces indent
  if next = some ' ' then (b ++ ['\\'], indent + 1) else (b, indent)

/-- Write text between double quotes. The line may break at a space, behind an escape, and at the
character behind one (`fresh`), but neither before the first character nor at the last. -/
def double (indent column : Nat) (first fresh : Bool) : Points → List Char
  | [] => []
  | p :: r =>
    let c := p.toChar
    let inner := !first && !r.isEmpty
    match escape? p with
    | some e =>
      let column := column + e.length
      if inner && width + 1 < column then
        let (b, column) := lineBreak indent (r.head?.map Point.toChar)
        e ++ b ++ double indent column false true r
      else e ++ double indent column false true r
    | none =>
      if inner && (c = ' ' || fresh) && width < column then
        let (b, column) := lineBreak indent (some c)
        b ++ c :: double indent (column + 1) false false r
      else c :: double indent (column + 1) false false r

/-- Write a text from `column` on. Only double quotes serve a text that is not all characters. -/
def scalar (indent column : Nat) (s : Points) : List Char :=
  match Style.ofText s.toList with
  | .plain => plain indent column 'x' s.toList
  | .single => '\'' :: folded indent (column + 1) 'x' s.toList ++ ['\'']
  | .double => '"' :: double indent (column + 1) true false s ++ ['"']

/-- Write a key and its text. `indent` is the column of the key; continuation lines are indented
by two more. -/
def entry (indent : Nat) (key : String) (text : Points) : List Char :=
  let k := key.toList ++ [':', ' ']
  k ++ scalar (indent + 2) (indent + k.length) text ++ ['\n']

end RouteCompiler.Yaml.Written
