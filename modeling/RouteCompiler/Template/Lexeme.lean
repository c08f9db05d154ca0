import RouteCompiler.Text.Blank

/-!
The pieces a template's text consists of: plain text, places to fill in, and statements. Places
and statements are given by their tokens. Blank text beside a statement, and the line end behind
it, belong to the statement; a sign within its marks takes more of the blank text away, or keeps it.
-/

namespace RouteCompiler.Template

open Text (isBlank hexValue?)

inductive Token
  | word (s : String)
  | text (s : String)
  | number (n : Nat)
  | sign (c : Char)
  deriving DecidableEq, Repr, Inhabited

inductive Piece
  | text (s : List Char)
  | output (tokens : List Token)
  | statement (tokens : List Token)
  deriving DecidableEq, Repr, Inhabited

/-- What a pair of characters opens. -/
inductive Mark
  | output
  | statement
  | comment
  deriving DecidableEq, Repr

/-- The second character of an opening pair, which starts the closing pair too. -/
def markOf? (c : Char) : Option Mark :=
  if c = '\x7b' then some .output
  else if c = '%' then some .statement
  else if c = '#' then some .comment
  else none

/-- What happens to blank text at a mark. -/
inductive Trim
  | usual
  | all
  | nothing
  deriving DecidableEq, Repr

/-- The sign behind an opening mark. -/
def openingTrim : List Char → Trim × List Char
  | '-' :: r => (.all, r)
  | '+' :: r => (.nothing, r)
  | r => (.usual, r)

/-! ## Blank text -/

/-- The text before a mark, without what the mark takes away. `lineStart` tells that the text
begins at the start of a line. -/
def beforeMark (m : Mark) (t : Trim) (lineStart : Bool) (text : List Char) : List Char :=
  match t with
  | .all => (text.reverse.dropWhile isBlank).reverse
  | .nothing => text
  | .usual =>
    let rest := text.reverse.dropWhile fun c => isBlank c && c ≠ '\n'
    if m = .output then text
    else if rest.head? = some '\n' || (rest = [] && lineStart) then rest.reverse
    else text

/-- Drop blank text, and tell whether it ended with a line end. -/
def skipBlanks : (lineStart : Bool) → List Char → Bool × List Char
  | b, c :: r => if isBlank c then skipBlanks (decide (c = '\n')) r else (b, c :: r)
  | b, [] => (b, [])

/-- Read the closing pair of a mark with its sign, and what it takes from the text behind it. -/
def closing? (m : Mark) : List Char → Option (Bool × List Char)
  | c :: r =>
    let second := if m = .comment then '#' else '%'
    match m, c, r with
    | .output, '-', '\x7d' :: '\x7d' :: r => some (skipBlanks false r)
    | .output, '\x7d', '\x7d' :: r => some (false, r)
    | .output, _, _ => none
    | _, '-', d :: '\x7d' :: r => if d = second then some (skipBlanks false r) else none
    | _, '+', d :: '\x7d' :: r => if d = second then some (false, r) else none
    | _, _, '\x7d' :: '\n' :: r => if c = second then some (true, r) else none
    | _, _, '\x7d' :: r => if c = second then some (false, r) else none
    | _, _, _ => none
  | [] => none

/-! ## Tokens -/

/-- Blocks of letters beyond ASCII. -/
def letterBlocks : List (Nat × Nat) :=
  [ (0xaa, 0xaa), (0xb5, 0xb5), (0xba, 0xba), (0xc0, 0xd6), (0xd8, 0xf6), (0xf8, 0x2c1),
    (0x370, 0x1fff), (0x3041, 0xd7ff), (0xf900, 0xfdff) ]

def isLetter (c : Char) : Bool :=
  c.isAlpha || c = '_' || letterBlocks.any fun b => b.1 ≤ c.toNat && c.toNat ≤ b.2

def isWordChar (c : Char) : Bool := c.isDigit || isLetter c

def signs : List Char := ['.', '[', ']', '(', ')', '|', ':']

/-- Characters that a letter behind a backslash stands for. -/
def escapeTable : List (Char × Char) :=
  [ ('n', '\n'), ('t', '\t'), ('r', '\r'), ('a', '\x07'), ('b', '\x08'), ('f', '\x0c'),
    ('v', '\x0b'), ('\\', '\\'), ('\'', '\''), ('"', '"') ]

/-- How many hexadecimal digits follow a letter behind a backslash. -/
def hexLength? (c : Char) : Option Nat :=
  if c = 'x' then some 2 else if c = 'u' then some 4 else if c = 'U' then some 8 else none

def hexNumber? (cs : List Char) : Option Nat :=
  cs.foldlM (fun n c => (hexValue? c).map fun d => 16 * n + d) 0

def isOctalDigit (c : Char) : Bool := '0' ≤ c && c ≤ '7'

/-- The character written by up to three octal digits, if there is a digit at the front. -/
def octal? (cs : List Char) : Option (Char × List Char) :=
  let ds := (cs.take 3).takeWhile isOctalDigit
  if ds = [] then none
  else some (Char.ofNat (ds.foldl (fun n d => 8 * n + (d.toNat - 48)) 0), cs.drop ds.length)

/-- The text between quotes with its escapes replaced. -/
def unescape : Nat → List Char → Option (List Char)
  | 0, _ => none
  | _ + 1, [] => some []
  | n + 1, '\\' :: '\n' :: r => unescape n r
  | n + 1, '\\' :: c :: r =>
    match escapeTable.lookup c, hexLength? c, octal? (c :: r) with
    | some d, _, _ => (unescape n r).map (d :: ·)
    | none, some k, _ => do
      let code ← hexNumber? (r.take k)
      if (r.take k).length = k && code.isValidChar then
        return Char.ofNat code :: (← unescape n (r.drop k))
      else none
    | none, none, some (d, r) => (unescape n r).map (d :: ·)
    | none, none, none => (unescape n r).map fun t => '\\' :: c :: t
  | n + 1, c :: r => (unescape n r).map (c :: ·)

/-- The text up to a quote that no backslash precedes, and the rest behind that quote. -/
def untilQuote (q : Char) : List Char → Option (List Char × List Char)
  | [] => none
  | '\\' :: c :: r => (untilQuote q r).map fun p => ('\\' :: c :: p.1, p.2)
  | c :: r => if c = q then some ([], r) else (untilQuote q r).map fun p => (c :: p.1, p.2)

def numberOf (cs : List Char) : Nat := cs.foldl (fun n c => 10 * n + (c.toNat - 48)) 0

/-- Read one token. -/
def token? : List Char → Option (Token × List Char)
  | [] => none
  | c :: r =>
    if c.isDigit then
      if c = '0' then some (.number 0, r.dropWhile (· = '0'))
      else some (.number (numberOf (c :: r.takeWhile Char.isDigit)), r.dropWhile Char.isDigit)
    else if isLetter c then
      some (.word (String.ofList (c :: r.takeWhile isWordChar)), r.dropWhile isWordChar)
    else if c = '"' || c = '\'' then do
      let (inner, r) ← untilQuote c r
      return (.text (String.ofList (← unescape (inner.length + 1) inner)), r)
    else if signs.contains c then some (.sign c, r)
    else none

/-- Read tokens up to the closing mark. -/
def tokens? (m : Mark) : Nat → List Char → Option (List Token × Bool × List Char)
  | 0, _ => none
  | n + 1, cs =>
    match closing? m cs with
    | some (b, r) => some ([], b, r)
    | none =>
      match cs with
      | [] => none
      | c :: r =>
        if isBlank c then tokens? m n r
        else do
          let (t, r) ← token? (c :: r)
          let (ts, b, r) ← tokens? m n r
          return (t :: ts, b, r)

/-! ## Pieces -/

/-- The text up to the first opening mark. -/
def untilOpening : List Char → List Char × Option (Mark × List Char)
  | '\x7b' :: c :: r =>
    match markOf? c with
    | some m => ([], some (m, r))
    | none =>
      let (t, o) := untilOpening (c :: r)
      ('\x7b' :: t, o)
  | c :: r =>
    let (t, o) := untilOpening r
    (c :: t, o)
  | [] => ([], none)

/-- Skip a comment. One that is opened at the very end need not be closed. -/
def skipComment : List Char → Option (Bool × List Char)
  | [] => none
  | c :: r =>
    match closing? .comment (c :: r) with
    | some p => some p
    | none => skipComment r

/-- Read a word with blank text around it. -/
def keyword? (word : List Char) (cs : List Char) : Option (List Char) :=
  let cs := cs.dropWhile isBlank
  if word.isPrefixOf cs then some ((cs.drop word.length).dropWhile isBlank) else none

/-- Behind the opening mark of a statement: the mark that begins literal text. It leaves the line
end behind it alone. -/
def literalBegin? (cs : List Char) : Option (Bool × List Char) := do
  match ← keyword? "raw".toList cs with
  | '-' :: '%' :: '\x7d' :: r => return skipBlanks false r
  | '%' :: '\x7d' :: r => return (false, r)
  | _ => none

/-- The statement that ends literal text, with its opening sign. -/
def literalEnd? : List Char → Option (Trim × Bool × List Char)
  | '\x7b' :: '%' :: r => do
    let (t, r) := openingTrim r
    let (b, r) ← closing? .statement (← keyword? "endraw".toList r)
    return (t, b, r)
  | _ => none

/-- The literal text, with what its end takes away still in place. -/
def literal? : List Char → Option (List Char × Trim × Bool × List Char)
  | [] => none
  | c :: r =>
    match literalEnd? (c :: r) with
    | some p => some ([], p)
    | none => (literal? r).map fun p => (c :: p.1, p.2)

def textPiece (s : List Char) : List Piece := if s = [] then [] else [.text s]

/-- Read pieces. -/
def pieces? : Nat → (lineStart : Bool) → List Char → Option (List Piece)
  | 0, _, _ => none
  | n + 1, lineStart, cs =>
    match untilOpening cs with
    | (text, none) => some (textPiece text)
    | (text, some (m, r)) =>
      let (t, r) := openingTrim r
      let before := textPiece (beforeMark m t lineStart text)
      match m with
      | .comment =>
        if r = [] then some before
        else do
          let (b, r) ← skipComment r
          return before ++ (← pieces? n b r)
      | .output => do
        let (ts, b, r) ← tokens? .output (r.length + 1) r
        return before ++ .output ts :: (← pieces? n b r)
      | .statement =>
        match literalBegin? r with
        | some (_, []) => some before
        | some (b, r) => do
          let (s, t, b', r) ← literal? r
          return before ++ textPiece (beforeMark .statement t b s) ++ (← pieces? n b' r)
        | none => do
          let (ts, b, r) ← tokens? .statement (r.length + 1) r
          return before ++ .statement ts :: (← pieces? n b r)

/-- The pieces of a template's text, whose lines end with line feeds. -/
def Piece.ofText? (cs : List Char) : Option (List Piece) := pieces? (cs.length + 1) true cs

end RouteCompiler.Template
