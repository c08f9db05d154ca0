import RouteCompiler.Yaml.Letter

/-!
Block scalars, behind their `|` or `>`. The header may fix the indentation and say what becomes of
the line ends at the end; a folded scalar joins lines that start with text.
-/

namespace RouteCompiler.Yaml

/-- What becomes of the line ends behind the last line. -/
inductive Chomping
  | strip
  | clip
  | keep
  deriving DecidableEq, Repr

structure BlockHeader where
  chomping : Chomping
  increment : Option Nat
  rest : List Char

def chomping? : Char → Option Chomping
  | '+' => some .keep
  | '-' => some .strip
  | _ => none

/-- An indentation mark: a digit other than zero. -/
def increment? (c : Char) : Except Error (Option Nat) :=
  if c = '0' then .error .malformed
  else if '1' ≤ c && c ≤ '9' then .ok (some (c.toNat - 48))
  else .ok none

/-- The marks, in either order. -/
def blockMarks (cs : List Char) : Except Error BlockHeader :=
  match cs with
  | [] => .ok ⟨.clip, none, []⟩
  | c :: r =>
    match chomping? c with
    | some k =>
      match r with
      | [] => .ok ⟨k, none, []⟩
      | d :: r' => do
        match ← increment? d with
        | some n => return ⟨k, some n, r'⟩
        | none => return ⟨k, none, r⟩
    | none => do
      match ← increment? c with
      | none => return ⟨.clip, none, cs⟩
      | some n =>
        match r with
        | [] => return ⟨.clip, some n, []⟩
        | d :: r' =>
          match chomping? d with
          | some k => return ⟨k, some n, r'⟩
          | none => return ⟨.clip, some n, r⟩

def blockHeader (cs : List Char) : Except Error BlockHeader := do
  let h ← blockMarks cs
  if endsOr isSpaceOrBreak h.rest then
    return { h with rest := ← finishLine h.rest }
  else .error .malformed

/-- Line ends before a line, and the column where that line starts. -/
structure Lead where
  breaks : List Char
  column : Nat
  rest : List Char

/-- Blank lines of any indentation; the number is the widest indentation among them. -/
def leadAny (column widest : Nat) : List Char → Lead × Nat
  | [] => (⟨[], column, []⟩, widest)
  | ' ' :: r => leadAny (column + 1) (max widest (column + 1)) r
  | cs =>
    match _h : lineEnd? cs with
    | none => (⟨[], column, cs⟩, widest)
    | some (b, r) =>
      let (l, w) := leadAny 0 widest r
      ({ l with breaks := b :: l.breaks }, w)
termination_by cs => cs.length
decreasing_by
  · exact Nat.lt_succ_self _
  · exact length_of_lineEnd? ‹_›

/-- Blank lines indented by at most `indent`. -/
def leadUpTo (indent column : Nat) : List Char → Lead
  | [] => ⟨[], column, []⟩
  | ' ' :: r =>
    if column < indent then leadUpTo indent (column + 1) r else ⟨[], column, ' ' :: r⟩
  | cs =>
    match _h : lineEnd? cs with
    | none => ⟨[], column, cs⟩
    | some (b, r) =>
      let l := leadUpTo indent 0 r
      { l with breaks := b :: l.breaks }
termination_by cs => cs.length
decreasing_by
  · exact Nat.lt_succ_self _
  · exact length_of_lineEnd? ‹_›

theorem length_leadUpTo_le (indent column : Nat) (cs : List Char) :
    (leadUpTo indent column cs).rest.length ≤ cs.length := by
  fun_induction leadUpTo indent column cs with
  | case1 => exact Nat.le_refl _
  | case2 _ r _ ih => exact Nat.le_succ_of_le ih
  | case3 => exact Nat.le_refl _
  | case4 => exact Nat.le_refl _
  | case5 _ _ _ _ _ _ h l ih => exact Nat.le_trans ih (Nat.le_of_lt (length_of_lineEnd? h))

/-- The line end at the front, if there is one, and what follows. -/
def takeLineEnd (cs : List Char) : List Char × List Char :=
  match lineEnd? cs with
  | some (b, r) => ([b], r)
  | none => ([], cs)

theorem length_takeLineEnd_le (cs : List Char) : (takeLineEnd cs).2.length ≤ cs.length := by
  unfold takeLineEnd
  split
  · exact Nat.le_of_lt (length_of_lineEnd? ‹_›)
  · exact Nat.le_refl _

/-- Read the lines at column `indent`. `ending` is the line end behind the text so far. -/
def blockLines (folded : Bool) (chomping : Chomping) (indent : Nat) (text ending : List Char)
    (l : Lead) : List Char × List Char :=
  let finish :=
    let text := if chomping = .strip then text else text ++ ending
    (if chomping = .keep then text ++ l.breaks else text, l.rest)
  match l with
  | ⟨_, _, []⟩ => finish
  | ⟨breaks, column, c :: r⟩ =>
    if column ≠ indent then finish
    else
      let e := takeLineEnd (r.dropWhile (!isBreak ·))
      let ending := e.1
      let next := leadUpTo indent 0 e.2
      let text := text ++ breaks ++ c :: r.takeWhile (!isBreak ·)
      let joined := folded && ending = ['\n'] && !isSpaceOrTab c &&
        !next.rest.head?.any isSpaceOrTab
      if next.column = indent && !next.rest.isEmpty then
        let text := if joined then (if next.breaks.isEmpty then text ++ [' '] else text)
          else text ++ ending
        blockLines folded chomping indent text [] next
      else blockLines folded chomping indent text ending next
termination_by l.rest.length
decreasing_by
  all_goals
    have h1 := length_leadUpTo_le indent 0 (takeLineEnd (r.dropWhile (!isBreak ·))).2
    have h2 := length_takeLineEnd_le (r.dropWhile (!isBreak ·))
    have h3 := length_dropWhile_le (!isBreak ·) r
    simp only [List.length_cons]
    omega

/-- Read a block scalar in a collection indented by `parent`, which is -1 for none. -/
def blockScalar (folded : Bool) (parent : Int) (cs : List Char) :
    Except Error (List Char × List Char) := do
  let h ← blockHeader cs
  let least := (max (parent + 1) 1).toNat
  match h.increment with
  | some n =>
    let indent := least + n - 1
    return blockLines folded h.chomping indent [] [] (leadUpTo indent 0 h.rest)
  | none =>
    let (l, widest) := leadAny 0 0 h.rest
    return blockLines folded h.chomping (max least widest) [] [] l

end RouteCompiler.Yaml
