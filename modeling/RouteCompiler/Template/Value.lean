import RouteCompiler.Failure
import RouteCompiler.Template.Basic

/-!
The values templates work with: plain values, lists and maps of them, records with named fields,
and text that is already safe between tags. What is not there has a value too, which is empty but
knows how to report itself.
-/

namespace RouteCompiler.Template

inductive Value
  /-- What a name or a member that is not there stands for. -/
  | missing (report : String)
  | null
  | truth (b : Bool)
  | int (i : Int)
  | float (x : Binary64)
  | text (s : String)
  | safe (s : String)
  | list (items : List Value)
  | map (entries : List (String × Value))
  /-- A record: the name of its kind, the scope of that name, and a text of its own, if it is not
  to be written field by field. Derived members follow from the fields and are not written. -/
  | record (scope kind : String) (plain : Option String) (fields derived : List (String × Value))
  deriving Repr, Inhabited

namespace Value

mutual
/-- Templates work with characters, as which the texts of JSON are taken here. -/
def ofJson : Json → Value
  | .null => .null
  | .bool b => .truth b
  | .int i => .int i
  | .float x => .float x
  | .str s => .text s.toUnicode
  | .arr items => .list (ofItems items)
  | .obj members => .map (ofMembers members)

def ofItems : List Json → List Value
  | [] => []
  | v :: r => ofJson v :: ofItems r

def ofMembers : List (Points × Json) → List (String × Value)
  | [] => []
  | (k, v) :: r => (k.toUnicode, ofJson v) :: ofMembers r
end

def ofOption : Option String → Value
  | none => .null
  | some s => .text s

/-! ## Text -/

mutual
/-- The shown text: strings quoted, truth values and null capitalised. -/
def shown : Value → String
  | .missing _ => "Undefined"
  | .null => "None"
  | .truth b => if b then "True" else "False"
  | .int i => toString i
  | .float x => x.toText
  | .text s | .safe s => Text.quoted s
  | .list items => "[" ++ ", ".intercalate (shownItems items) ++ "]"
  | .map entries => "\x7b" ++ ", ".intercalate (shownEntries entries) ++ "\x7d"
  | .record _ kind _ fields _ => kind ++ "(" ++ ", ".intercalate (shownFields fields) ++ ")"

def shownItems : List Value → List String
  | [] => []
  | v :: r => v.shown :: shownItems r

def shownEntries : List (String × Value) → List String
  | [] => []
  | (k, v) :: r => (Text.quoted k ++ ": " ++ v.shown) :: shownEntries r

def shownFields : List (String × Value) → List String
  | [] => []
  | (k, v) :: r => (k ++ "=" ++ v.shown) :: shownFields r
end

/-- The plain text: a string stands for itself, and nothing for what is missing. -/
def toText : Value → String
  | .missing _ => ""
  | .text s | .safe s => s
  | .record _ _ (some plain) _ _ => plain
  | .record _ _ none fields _ => " ".intercalate (shownFields fields)
  | v => v.shown

/-- How a character is written between tags. -/
def escapeChar (c : Char) : List Char :=
  if c = '&' then "&amp;".toList
  else if c = '<' then "&lt;".toList
  else if c = '>' then "&gt;".toList
  else if c = '"' then "&#34;".toList
  else if c = '\'' then "&#39;".toList
  else [c]

def escapeChars (cs : List Char) : List Char := cs.flatMap escapeChar

/-- The value as text that is safe between tags; text that is safe already stays as it is. -/
def escaped : Value → Value
  | .safe s => .safe s
  | v => .safe (String.ofList (escapeChars v.toText.toList))

/-! ## Members and items -/

/-- What is missing, null, false, zero or empty does not hold; all else does. -/
def holds : Value → Bool
  | .missing _ | .null => false
  | .truth b => b
  | .int i => i != 0
  | .float x => !x.isZero
  | .text s | .safe s => !s.isEmpty
  | .list items => !items.isEmpty
  | .map entries => !entries.isEmpty
  | .record .. => true

/-- What a report calls the value. -/
def kindName : Value → String
  | .missing _ => "Undefined object"
  | .null => "None"
  | .truth _ => "bool object"
  | .int _ => "int object"
  | .float _ => "float object"
  | .text _ => "str object"
  | .safe _ => "Markup object"
  | .list _ => "list object"
  | .map _ => "dict object"
  | .record scope kind _ _ _ => scope ++ kind ++ " object"

/-- A name that stands for nothing. -/
def noName (n : String) : Value := .missing (Text.quoted n ++ " is undefined")

def noMember (v : Value) (n : String) : Value :=
  .missing (Text.quoted v.kindName ++ " has no attribute " ++ Text.quoted n)

def noItem (v key : Value) : Value :=
  .missing (v.kindName ++ " has no element " ++ key.shown)

/-- A member by its name. What is missing itself cannot be asked for members. -/
def member (v : Value) (n : String) : Except Breakdown Value :=
  match v with
  | .missing report => .error (.undefinedAttribute report)
  | .map es => .ok ((es.lookup n).getD (v.noMember n))
  | .record _ _ _ fields derived => .ok (((fields ++ derived).lookup n).getD (v.noMember n))
  | v => .ok (v.noMember n)

/-- The place an index stands for, counted from the end if it is negative. -/
def placeOf (size : Nat) (i : Int) : Option Nat :=
  if 0 ≤ i then some i.toNat else if 0 ≤ i + size then some (i + size).toNat else none

/-- The index a value stands for; truth values count as 0 and 1. -/
def index? : Value → Option Int
  | .int i => some i
  | .truth b => some (if b then 1 else 0)
  | _ => none

/-- What stands at an index of a list or text. -/
def at? (v : Value) (i : Int) : Option Value :=
  match v with
  | .list items => (placeOf items.length i).bind (items[·]?)
  | .text s => ((placeOf s.toList.length i).bind (s.toList[·]?)).map fun c => .text c.toString
  | .safe s => ((placeOf s.toList.length i).bind (s.toList[·]?)).map fun c => .safe c.toString
  | _ => none

/-- A member by a value: a name, or a place in a list or text. -/
def item (v key : Value) : Except Breakdown Value :=
  match v, key with
  | .missing report, _ => .error (.undefinedAttribute report)
  | v, .text n | v, .safe n => v.member n
  | v, key => .ok ((key.index?.bind v.at?).getD (v.noItem key))

/-- The items a part can be repeated for. -/
def items : Value → Except Breakdown (List Value)
  | .missing _ => .ok []
  | .text s | .safe s => .ok (s.toList.map fun c => .text c.toString)
  | .list items => .ok items
  | .map entries => .ok (entries.map fun e => .text e.1)
  | _ => .error .notRepeatable

end Value
end RouteCompiler.Template
