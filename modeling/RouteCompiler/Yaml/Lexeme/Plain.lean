import RouteCompiler.Yaml.Letter

/-!
Plain scalars: text without quotes. It ends before a colon that has nothing joined to it, before a
comment, at a flow mark inside a flow collection, and where a line is not indented far enough. One
line end inside it reads as a space; of several the first is dropped.
-/

namespace RouteCompiler.Yaml

/-- A plain scalar cannot go on at character `c` with `next` behind it. -/
def plainStops (inFlow : Bool) (c : Char) (next : List Char) : Bool :=
  isGap c || (c = ':' && endsOr (fun d => isGap d || (inFlow && isFlowMark d)) next) ||
    (inFlow && (isFlowMark c || c = '?'))

/-- The length of the run of characters at the front that belong to a plain scalar. -/
def plainLength (inFlow : Bool) : List Char → Nat
  | [] => 0
  | c :: r => if plainStops inFlow c r then 0 else plainLength inFlow r + 1

/-- What stands between two runs of a plain scalar: the text it reads as, the column behind it if
it crossed a line end, and whether it ran into a document separator. -/
structure Gap where
  text : List Char
  column : Option Nat
  separated : Bool
  rest : List Char

/-- Spaces and further line ends behind a first one; `column` counts spaces since the last. -/
def gapBreaks (column : Nat) : List Char → Gap
  | [] => ⟨[], some column, false, []⟩
  | ' ' :: r => gapBreaks (column + 1) r
  | cs =>
    match _h : lineEnd? cs with
    | none => ⟨[], some column, false, cs⟩
    | some (b, r) =>
      if atSeparator r then ⟨[b], some 0, true, r⟩
      else
        let g := gapBreaks 0 r
        { g with text := b :: g.text }
termination_by cs => cs.length
decreasing_by
  · exact Nat.lt_succ_self _
  · exact length_of_lineEnd? ‹_›

def gap (cs : List Char) : Gap :=
  let spaces := cs.takeWhile (· = ' ')
  let r := cs.dropWhile (· = ' ')
  match lineEnd? r with
  | none => ⟨spaces, none, false, r⟩
  | some (b, r) =>
    if atSeparator r then ⟨[], some 0, true, r⟩
    else
      let g := gapBreaks 0 r
      { g with text := if b ≠ '\n' then b :: g.text else if g.text.isEmpty then [' '] else g.text }

theorem length_gapBreaks_le (column : Nat) (cs : List Char) :
    (gapBreaks column cs).rest.length ≤ cs.length := by
  fun_induction gapBreaks column cs with
  | case1 => exact Nat.le_refl _
  | case2 _ r ih => exact Nat.le_succ_of_le ih
  | case3 => exact Nat.le_refl _
  | case4 _ _ _ _ _ _ h => exact Nat.le_of_lt (length_of_lineEnd? h)
  | case5 _ _ _ _ _ _ h _ g ih => exact Nat.le_trans ih (Nat.le_of_lt (length_of_lineEnd? h))

theorem length_gap_le (cs : List Char) : (gap cs).rest.length ≤ cs.length := by
  have hd := length_dropWhile_le (· = ' ') cs
  unfold gap
  dsimp only
  split
  · exact hd
  · rename_i b r h
    have hr := length_of_lineEnd? h
    split
    · exact Nat.le_of_lt (Nat.lt_of_lt_of_le hr hd)
    · exact Nat.le_trans (length_gapBreaks_le 0 r) (Nat.le_of_lt (Nat.lt_of_lt_of_le hr hd))

structure Plain where
  text : List Char
  /-- The gap behind the scalar crossed a line end. -/
  crossed : Bool
  rest : List Char

/-- Read runs and the gaps between them; `pending` is the gap before the next run. In block
context a line must reach column `indent`. -/
def plainRuns (inFlow : Bool) (indent : Int) (text pending : List Char) (crossed : Bool)
    (cs : List Char) : Plain :=
  match cs with
  | [] => ⟨text, crossed, []⟩
  | c :: r =>
    if c = '#' || plainStops inFlow c r then ⟨text, crossed, c :: r⟩
    else
      let n := plainLength inFlow r
      let text := text ++ pending ++ c :: r.take n
      let g := gap (r.drop n)
      let crossed := g.column.isSome
      if g.separated || g.text.isEmpty || g.rest.head? = some '#' ||
          (!inFlow && g.column.any fun k => (k : Int) < indent) then
        ⟨text, crossed, g.rest⟩
      else plainRuns inFlow indent text g.text crossed g.rest
termination_by cs.length
decreasing_by
  have := length_gap_le (r.drop (plainLength inFlow r))
  simp only [List.length_drop, List.length_cons] at *
  omega

def plain (inFlow : Bool) (indent : Int) (cs : List Char) : Plain :=
  plainRuns inFlow indent [] [] false cs

end RouteCompiler.Yaml
