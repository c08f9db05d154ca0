import RouteCompiler.Console.Markup
import RouteCompiler.Console.Wrap

/-!
Tables with lines around their cells. Columns are as wide as their widest line; the title stands
centred above and is broken to the width of the table. Titles and cells may have markup.
-/

namespace RouteCompiler.Console

structure Column where
  header : String
  alignment : Alignment := .left

structure Table where
  title : String
  columns : List Column
  rows : List (List String)

/-- Characters at which a text is measured line by line. -/
def separatesLines (c : Char) : Bool :=
  (0xa ≤ c.toNat && c.toNat ≤ 0xd) || (0x1c ≤ c.toNat && c.toNat ≤ 0x1e) || c.toNat = 0x85 ||
    c.toNat = 0x2028 || c.toNat = 0x2029

/-- The width of the widest line. -/
def measure (cs : List Char) : Nat :=
  (((cs.filter fun c => !movesCursor c).splitOnP separatesLines).map width).foldl max 0

/-- The marks of one horizontal line: left end, line, crossing and right end. -/
structure Border where
  left : Char
  line : Char
  crossing : Char
  right : Char

def topBorder : Border := ⟨'┏', '━', '┳', '┓'⟩
def headerBorder : Border := ⟨'┡', '━', '╇', '┩'⟩
def bottomBorder : Border := ⟨'└', '─', '┴', '┘'⟩

/-- The marks between cells of the header, and of the rows. -/
def headerMark : Char := '┃'
def rowMark : Char := '│'

def Border.draw (b : Border) (widths : List Nat) : List Char :=
  b.left :: [b.crossing].intercalate (widths.map fun w => List.replicate (w + 2) b.line) ++
    [b.right]

/-- The lines of one row of cells, as many as the highest cell has. -/
def drawRow (mark : Char) (columns : List (Alignment × Nat)) (cells : List (List Char)) :
    List (List Char) :=
  let drawn := List.zipWith (fun c t => (c.2, wrap c.1 false c.2 t)) columns cells
  let height := (drawn.map fun d => d.2.length).foldl max 0
  (List.range height).map fun i =>
    mark :: [mark].intercalate (drawn.map fun d =>
      ' ' :: (d.2[i]?).getD (blanks d.1) ++ [' ']) ++ [mark]

/-- The lines of a table. -/
def Table.lines (t : Table) : Except Breakdown (List (List Char)) := do
  let read (s : String) : Except Breakdown (List Char) := do return (← plain s).toList
  let rows ← t.rows.mapM fun r => r.mapM read
  let headers ← t.columns.mapM fun c => read c.header
  let widths := headers.zipIdx.map fun (h, i) =>
    (rows.map fun r => measure (r.getD i [])).foldl max (measure h)
  let total := widths.foldl (fun n w => n + w + 3) 1
  let title ← if t.title.isEmpty then pure []
    else do pure (wrap .center true total (← read t.title))
  let columns := (t.columns.map (·.alignment)).zip widths
  return title ++ [topBorder.draw widths] ++ drawRow headerMark columns headers
    ++ [headerBorder.draw widths] ++ rows.flatMap (drawRow rowMark columns)
    ++ [bottomBorder.draw widths]

/-- The text of a table. -/
def Table.render (t : Table) : Except Breakdown String := do
  return String.join ((← t.lines).map fun l => String.ofList (l ++ ['\n']))

/-- How wide a line of messages may be. -/
def lineWidth : Nat := 10000

/-- A message with markup as it appears, with a line end. -/
def message (markup : String) : Except Breakdown String := do
  let ls := wrap .none true lineWidth (← plain markup).toList
  return String.join (ls.map fun l => String.ofList (l ++ ['\n']))

end RouteCompiler.Console
