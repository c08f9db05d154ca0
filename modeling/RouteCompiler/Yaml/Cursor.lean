import RouteCompiler.Yaml.Letter

/-!
A place in a text: what is left of it, how many characters were passed, and the line and column,
both counted from zero. A byte order mark takes no column.
-/

namespace RouteCompiler.Yaml

structure Cursor where
  rest : List Char
  index : Nat
  line : Nat
  column : Nat
  deriving Repr, Inhabited

namespace Cursor

def start (cs : List Char) : Cursor := ⟨cs, 0, 0, 0⟩

/-- The character ends its line: a carriage return does so unless a line feed follows. -/
def endsLine (c : Char) (next : List Char) : Bool :=
  isBreak c && !(c = '\r' && next.head? = some '\n')

def next (k : Cursor) : Cursor :=
  match k.rest with
  | [] => k
  | c :: r =>
    if endsLine c r then ⟨r, k.index + 1, k.line + 1, 0⟩
    else ⟨r, k.index + 1, k.line, if c = '\ufeff' then k.column else k.column + 1⟩

def advance : Nat → Cursor → Cursor
  | 0, k => k
  | n + 1, k => advance n k.next

/-- Move on until `rest` is left. -/
def moveTo (k : Cursor) (rest : List Char) : Cursor := advance (k.rest.length - rest.length) k

theorem rest_next (k : Cursor) : k.next.rest = k.rest.tail := by
  unfold next
  split
  · simp_all
  · rename_i c r h
    split <;> simp [h]

theorem rest_advance (n : Nat) (k : Cursor) : (advance n k).rest = k.rest.drop n := by
  induction n generalizing k with
  | zero => rfl
  | succ n ih => rw [advance, ih, rest_next, List.drop_tail]

end Cursor
end RouteCompiler.Yaml
