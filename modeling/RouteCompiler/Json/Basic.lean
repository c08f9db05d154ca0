import RouteCompiler.Binary64.Text
import RouteCompiler.Text.Quoted

/-!
JSON values. The members of an object keep their order and have distinct names. A value has a
plain text, in which a string stands for itself, and a shown text, in which strings are quoted.
-/

namespace RouteCompiler

inductive Json
  | null
  | bool (b : Bool)
  | int (i : Int)
  | float (x : Binary64)
  | str (s : Points)
  | arr (items : List Json)
  | obj (members : List (Points × Json))
  deriving Repr, Inhabited

namespace Json

/-- Write a member of an object: at its old place, or at the end. -/
def putMember (k : Points) (v : Json) : List (Points × Json) → List (Points × Json)
  | [] => [(k, v)]
  | (k', v') :: r => if k' = k then (k', v) :: r else (k', v') :: putMember k v r

/-- The object with these members, the last of equal names winning. -/
def ofMembers (ms : List (Points × Json)) : Json :=
  .obj (ms.foldl (fun acc m => putMember m.1 m.2 acc) [])

def member? (k : String) : Json → Option Json
  | .obj ms => (ms.find? fun m => m.1 == Points.ofString k).map Prod.snd
  | _ => none

/-- Null, false, zero and everything empty do not hold; all else does. -/
def holds : Json → Bool
  | .null => false
  | .bool b => b
  | .int i => i != 0
  | .float x => !x.isZero
  | .str s => !s.isEmpty
  | .arr items => !items.isEmpty
  | .obj members => !members.isEmpty

mutual
/-- The shown text: strings quoted, truth values and null capitalised. -/
def shown : Json → String
  | .null => "None"
  | .bool b => if b then "True" else "False"
  | .int i => toString i
  | .float x => x.toText
  | .str s => Text.quoted s
  | .arr items => "[" ++ ", ".intercalate (shownItems items) ++ "]"
  | .obj members => "\x7b" ++ ", ".intercalate (shownMembers members) ++ "\x7d"

def shownItems : List Json → List String
  | [] => []
  | v :: r => shown v :: shownItems r

def shownMembers : List (Points × Json) → List String
  | [] => []
  | (k, v) :: r => (Text.quoted k ++ ": " ++ shown v) :: shownMembers r
end

/-- The plain text: a string stands for itself. -/
def toText : Json → Points
  | .str s => s
  | v => v.shown

end Json
end RouteCompiler
