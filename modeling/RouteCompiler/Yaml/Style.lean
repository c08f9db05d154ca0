import RouteCompiler.Yaml.Tag

/-!
How a text can be written as a scalar so that it reads back as the same text. Plain style serves
one line that no rule takes for something else; single quotes serve printable text whose line ends
have no blanks around them; double quotes serve everything.
-/

namespace RouteCompiler.Yaml

inductive Style
  | plain
  | single
  | double
  deriving DecidableEq, Repr

namespace Style

def isShownAscii (c : Char) : Bool := 0x20 ≤ c.toNat && c.toNat ≤ 0x7e

/-- Characters that cannot start a plain scalar. -/
def openers : List Char := "#,[]\x7b\x7d&*!|>'\"%@\x60".toList

/-- A colon before a gap, or a hash behind one; `previous` is the character before. -/
def hasInnerMark (previous : Char) : List Char → Bool
  | [] => false
  | c :: r =>
    (c = ':' && endsOr isGap r) || (c = '#' && isGap previous) || hasInnerMark c r

/-- The text would be read as something else than one plain scalar. -/
def hasMark : List Char → Bool
  | [] => false
  | c :: r =>
    ['-', '-', '-'].isPrefixOf (c :: r) || ['.', '.', '.'].isPrefixOf (c :: r) ||
      openers.contains c || ((c = '?' || c = ':' || c = '-') && endsOr isGap r) ||
      hasInnerMark c r

def allowsPlain (cs : List Char) : Bool :=
  cs.all isShownAscii && cs.head? ≠ some ' ' && cs.getLast? ≠ some ' ' && !hasMark cs &&
    Tag.ofPlain cs == .str

/-- A line end with a blank before or behind it. -/
def hasBlankAtBreak : List Char → Bool
  | ' ' :: '\n' :: _ => true
  | '\n' :: ' ' :: _ => true
  | _ :: r => hasBlankAtBreak r
  | [] => false

def allowsSingle (cs : List Char) : Bool :=
  (cs.all fun c => isShownAscii c || c = '\n') && !hasBlankAtBreak cs

def ofText (cs : List Char) : Style :=
  if allowsPlain cs then .plain else if allowsSingle cs then .single else .double

end Style
end RouteCompiler.Yaml
