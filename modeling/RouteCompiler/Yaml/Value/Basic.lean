import RouteCompiler.Binary64.Text
import RouteCompiler.Text.Quoted
import RouteCompiler.Yaml.Moment

/-!
The values that YAML and JSON documents hold. Keys of a mapping may be any value but a collection;
numbers that are equal are the same key, whatever their kind, truth values counting as 0 and 1.
-/

namespace RouteCompiler.Yaml

inductive Value
  | null
  | bool (b : Bool)
  | int (i : Int)
  | float (x : Binary64)
  | text (s : Points)
  | bytes (b : ByteArray)
  | moment (m : Moment)
  | seq (items : List Value)
  | map (entries : List (Value × Value))
  | set (items : List Value)
  deriving Inhabited

namespace Value

/-- Collections cannot be keys. -/
def isCollection : Value → Bool
  | .seq _ | .map _ | .set _ => true
  | _ => false

def asInt? : Value → Option Int
  | .bool b => some (if b then 1 else 0)
  | .int i => some i
  | .float x => x.toInt?
  | _ => none

/-- Two keys are the same. -/
def sameKey (a b : Value) : Bool :=
  match a.asInt?, b.asInt? with
  | some i, some j => i == j
  | some _, none => false
  | none, some _ => false
  | none, none =>
    match a, b with
    | .null, .null => true
    | .float x, .float y => x == y
    | .text s, .text t => s == t
    | .bytes x, .bytes y => x == y
    | .moment x, .moment y => x.same y
    | _, _ => false

/-- Write an entry: the first of two same keys keeps its place and spelling, the last its value. -/
def putEntry (k v : Value) : List (Value × Value) → List (Value × Value)
  | [] => [(k, v)]
  | (k', v') :: r => if sameKey k' k then (k', v) :: r else (k', v') :: putEntry k v r

def distinctEntries (es : List (Value × Value)) : List (Value × Value) :=
  es.foldl (fun acc e => putEntry e.1 e.2 acc) []

/-- The value at a text key. -/
def entry? (key : String) : List (Value × Value) → Option Value
  | [] => none
  | (.text k, v) :: r => if k = key then some v else entry? key r
  | _ :: r => entry? key r

end Value
end RouteCompiler.Yaml
