import RouteCompiler.Yaml.Error
import RouteCompiler.Text.Blank

/-!
Character classes and line ends of YAML 1.1. The two separators U+2028 and U+2029 end a line and
keep their identity; all other line ends read as one line feed.
-/

namespace RouteCompiler.Yaml

/-- Characters a document may hold at all. -/
def isAllowed (c : Char) : Bool :=
  let n := c.toNat
  n == 0x9 || n == 0xa || n == 0xd || (0x20 ≤ n && n ≤ 0x7e) || n == 0x85 ||
    (0xa0 ≤ n && n ≤ 0xd7ff) || (0xe000 ≤ n && n ≤ 0xfffd) || 0x10000 ≤ n

def isBreak (c : Char) : Bool :=
  c = '\n' || c = '\r' || c = '\x85' || c = '\u2028' || c = '\u2029'

def isSpaceOrTab (c : Char) : Bool := c = ' ' || c = '\t'

/-- A space or a line end. -/
def isSpaceOrBreak (c : Char) : Bool := c = ' ' || isBreak c

/-- A space, a tabulator or a line end. -/
def isGap (c : Char) : Bool := isSpaceOrTab c || isBreak c

/-- The text is at its end or its first character satisfies `p`. -/
def endsOr (p : Char → Bool) (cs : List Char) : Bool := cs.head?.all p

/-- Letters, digits, hyphen and underscore: what names are made of. -/
def isNameChar (c : Char) : Bool :=
  ('0' ≤ c && c ≤ '9') || ('A' ≤ c && c ≤ 'Z') || ('a' ≤ c && c ≤ 'z') || c = '-' || c = '_'

def isFlowMark (c : Char) : Bool :=
  c = ',' || c = '[' || c = ']' || c = '\x7b' || c = '\x7d'

/-- The line end at the front, as the character it reads as. -/
def lineEnd? : List Char → Option (Char × List Char)
  | '\r' :: '\n' :: r => some ('\n', r)
  | c :: r =>
    if c = '\n' || c = '\r' || c = '\x85' then some ('\n', r)
    else if c = '\u2028' || c = '\u2029' then some (c, r)
    else none
  | [] => none

theorem length_of_lineEnd? {cs r : List Char} {c : Char} (h : lineEnd? cs = some (c, r)) :
    r.length < cs.length := by
  unfold lineEnd? at h
  split at h
  · simp only [Option.some.injEq, Prod.mk.injEq] at h
    simp only [List.length_cons, ← h.2]
    omega
  · split at h
    · simp only [Option.some.injEq, Prod.mk.injEq] at h
      simp [← h.2]
    · split at h
      · simp only [Option.some.injEq, Prod.mk.injEq] at h
        simp [← h.2]
      · simp at h
  · simp at h

theorem length_dropWhile_le (p : Char → Bool) (cs : List Char) :
    (cs.dropWhile p).length ≤ cs.length :=
  (List.dropWhile_sublist p).length_le

/-- Three hyphens or three points, and nothing joined to them: the line separates documents. -/
def atSeparator : List Char → Bool
  | '-' :: '-' :: '-' :: r => endsOr isGap r
  | '.' :: '.' :: '.' :: r => endsOr isGap r
  | _ => false

/-- The text behind a comment, if one starts here. -/
def skipComment (cs : List Char) : List Char :=
  if cs.head? = some '#' then cs.dropWhile (!isBreak ·) else cs

theorem length_skipComment_le (cs : List Char) : (skipComment cs).length ≤ cs.length := by
  unfold skipComment
  split
  · exact length_dropWhile_le _ _
  · exact Nat.le_refl _

/-- The text behind spaces and a comment, which must reach the end of the line, and that end. -/
def finishLine (cs : List Char) : Except Error (List Char) :=
  let r := skipComment (cs.dropWhile (· = ' '))
  match lineEnd? r with
  | some (_, r) => .ok r
  | none => if r.isEmpty then .ok r else .error .malformed

end RouteCompiler.Yaml
