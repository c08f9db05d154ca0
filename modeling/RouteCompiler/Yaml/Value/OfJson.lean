import RouteCompiler.Json.Basic
import RouteCompiler.Yaml.Value.Basic

/-!
JSON values as document values. Both kinds of document are read by the same schemas.
-/

namespace RouteCompiler.Yaml.Value

mutual
def ofJson : Json → Value
  | .null => .null
  | .bool b => .bool b
  | .int i => .int i
  | .float x => .float x
  | .str s => .text s
  | .arr items => .seq (ofJsonItems items)
  | .obj members => .map (ofJsonMembers members)

def ofJsonItems : List Json → List Value
  | [] => []
  | v :: r => ofJson v :: ofJsonItems r

def ofJsonMembers : List (Points × Json) → List (Value × Value)
  | [] => []
  | (k, v) :: r => (.text k, ofJson v) :: ofJsonMembers r
end

end RouteCompiler.Yaml.Value
