/-!
File paths as text. A path is relative or starts at a root; empty and single-point segments do not
count, while segments of two points are kept, for what they mean depends on the files.
-/

namespace RouteCompiler

structure Path where
  /-- The slashes a path starts with: none, one, or two, which are not the same as one. -/
  root : String
  parts : List String
  deriving DecidableEq, Repr, Inhabited

namespace Path

/-- Segments that count. -/
def segments (cs : List Char) : List String :=
  ((cs.splitOn '/').filter fun s => s ≠ [] && s ≠ ['.']).map String.ofList

def rootOf : List Char → String
  | '/' :: '/' :: '/' :: _ => "/"
  | '/' :: '/' :: _ => "//"
  | '/' :: _ => "/"
  | _ => ""

def ofString (s : String) : Path := ⟨rootOf s.toList, segments s.toList⟩

def isAbsolute (p : Path) : Bool := p.root ≠ ""

def toString (p : Path) : String :=
  if p.root = "" && p.parts = [] then "." else p.root ++ "/".intercalate p.parts

instance : ToString Path := ⟨toString⟩

/-- The second path as seen from the first; an absolute path is the same from everywhere. -/
def join (p q : Path) : Path := if q.isAbsolute then q else ⟨p.root, p.parts ++ q.parts⟩

/-- The last segment. -/
def name (p : Path) : String := p.parts.getLast?.getD ""

def parent (p : Path) : Path := { p with parts := p.parts.dropLast }

/-- One segment more; two points take back a segment that is no two points itself. Nothing is above
the root. -/
def collapseStep (absolute : Bool) (done : List String) (segment : String) : List String :=
  if segment ≠ ".." then done ++ [segment]
  else
    match done.getLast? with
    | none => if absolute then [] else [".."]
    | some last => if last = ".." then done ++ [".."] else done.dropLast

/-- The path without two-point segments behind others, taken by its text alone. -/
def collapse (p : Path) : Path := { p with parts := p.parts.foldl (collapseStep p.isAbsolute) [] }

end Path
end RouteCompiler
