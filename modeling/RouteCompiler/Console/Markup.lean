import RouteCompiler.Failure
import RouteCompiler.Text.Blank

/-!
Markup of console text: a tag in square brackets changes the style, a closing tag ends the last one
of its name, or the last of all. Styles do not show in plain output; what shows is the text between
the tags, and a closing tag without a partner is an error. Backslashes take the meaning away from a
tag.
-/

namespace RouteCompiler.Console

/-- Characters a tag may begin with. -/
def beginsTag (c : Char) : Bool :=
  ('a' ≤ c && c ≤ 'z') || c = '#' || c = '/' || c = '@'

/-- The text of a tag up to its closing bracket. -/
def tagRest : List Char → Option (List Char × List Char)
  | [] => none
  | ']' :: r => some ([], r)
  | '[' :: _ => none
  | c :: r => (tagRest r).map fun p => (c :: p.1, p.2)

/-- The tag behind an opening bracket. -/
def tag? : List Char → Option (List Char × List Char)
  | c :: r => if beginsTag c then (tagRest r).map fun p => (c :: p.1, p.2) else none
  | [] => none

/-- The tag at the front, its backslashes counted. -/
def escapedTag? (cs : List Char) : Option (Nat × List Char × List Char) :=
  match cs.dropWhile (· = '\\') with
  | '[' :: r => (tag? r).map fun p => ((cs.takeWhile (· = '\\')).length, p)
  | _ => none

inductive Piece
  | text (cs : List Char)
  | tag (name : List Char)

/-- Parts of a text with markup. The number bounds them; the length of the text is enough. -/
def pieces : Nat → (plain : List Char) → List Char → List Piece
  | 0, plain, _ => [.text plain.reverse]
  | _ + 1, plain, [] => [.text plain.reverse]
  | n + 1, plain, c :: r =>
    match if c = '\\' || c = '[' then escapedTag? (c :: r) else none with
    | none =>
      if c = '\\' then
        let run := r.takeWhile (· = '\\')
        pieces n (run ++ c :: plain) (r.dropWhile (· = '\\'))
      else pieces n (c :: plain) r
    | some (k, name, rest) =>
      let slashes := List.replicate (k / 2) '\\'
      let tag := if k % 2 = 1 then Piece.text ('[' :: name ++ [']']) else .tag name
      .text plain.reverse :: .text slashes :: tag :: pieces n [] rest

/-- Short names of styles. -/
def styleNames : List (String × String) :=
  [ ("b", "bold"), ("i", "italic"), ("u", "underline"), ("uu", "underline2"), ("d", "dim"),
    ("s", "strike"), ("r", "reverse"), ("c", "conceal"), ("o", "overline") ]

/-- The name by which a style is found again. -/
def styleName (cs : List Char) : String :=
  let s := String.ofList ((Text.trimBy Text.isBlank cs).map Char.toLower)
  (styleNames.lookup s).getD s

/-- Drop the backslashes before brackets that are no tags. -/
def unslash : List Char → List Char
  | '\\' :: '[' :: r => '[' :: unslash r
  | c :: r => c :: unslash r
  | [] => []

/-- Take the last open style of a name away. -/
def close? (name : String) : List String → Option (List String)
  | [] => none
  | s :: r => if s = name then some r else (close? name r).map (s :: ·)

/-- The text between the tags; `styles` are those still open, the last one first. -/
def plainOf (styles : List String) : List Piece → Except Breakdown (List Char)
  | [] => .ok []
  | .text cs :: r => do return unslash cs ++ (← plainOf styles r)
  | .tag ('/' :: name) :: r => do
    let name := name.takeWhile (· ≠ '=')
    match if name.all Text.isBlank then styles.tail? else close? (styleName name) styles with
    | some styles => plainOf styles r
    | none => throw .markup
  | .tag name :: r => plainOf (styleName (name.takeWhile (· ≠ '=')) :: styles) r

/-- The plain text of a text with markup. -/
def plain (s : String) : Except Breakdown String :=
  if s.toList.contains '[' then
    String.ofList <$> plainOf [] (pieces (s.toList.length + 1) [] s.toList)
  else .ok s

/-- Take the meaning away from every tag. The number bounds the characters read. -/
def escapeTags : Nat → List Char → List Char
  | 0, cs => cs
  | _ + 1, [] => []
  | n + 1, c :: r =>
    match if c = '\\' || c = '[' then escapedTag? (c :: r) else none with
    | some (k, name, rest) =>
      List.replicate (2 * k + 1) '\\' ++ '[' :: name ++ ']' :: escapeTags n rest
    | none =>
      if c = '\\' then
        c :: r.takeWhile (· = '\\') ++ escapeTags n (r.dropWhile (· = '\\'))
      else c :: escapeTags n r

/-- The markup whose plain text is the given text. A single backslash at the end is doubled. -/
def escape (s : String) : String :=
  let cs := escapeTags (s.toList.length + 1) s.toList
  String.ofList <|
    match cs.reverse with
    | '\\' :: '\\' :: _ => cs
    | '\\' :: _ => cs ++ ['\\']
    | _ => cs

end RouteCompiler.Console
