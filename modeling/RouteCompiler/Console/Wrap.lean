import RouteCompiler.Console.Width
import RouteCompiler.Text.Blank

/-!
Lines of console text. Control characters that move the cursor are left out and tabulators become
blanks. A line that is too long is broken before a word; a word that is too long for any line is
broken within.
-/

namespace RouteCompiler.Console

open Text (isBlank)

/-- Bell, backspace, vertical tabulator, form feed and carriage return. -/
def movesCursor (c : Char) : Bool := [7, 8, 11, 12, 13].contains c.toNat

def tabSize : Nat := 8

/-- Replace tabulators by blanks up to the next stop. -/
def expandTabs (position : Nat) : List Char → List Char
  | [] => []
  | '\t' :: r =>
    let n := tabSize - position % tabSize
    List.replicate n ' ' ++ expandTabs (position + n) r
  | c :: r => c :: expandTabs (position + cells c) r

/-- Words with the blanks behind them, the first also with those before it. The number bounds the
words. -/
def words : Nat → List Char → List (List Char)
  | 0, _ => []
  | n + 1, cs =>
    let before := cs.takeWhile isBlank
    let rest := cs.dropWhile isBlank
    let word := rest.takeWhile fun c => !isBlank c
    let rest := rest.dropWhile fun c => !isBlank c
    if word = [] then []
    else (before ++ word ++ rest.takeWhile isBlank) :: words n (rest.dropWhile isBlank)

def trimRight (cs : List Char) : List Char := (cs.reverse.dropWhile isBlank).reverse

/-- Break a word into parts that fit. -/
def chop (limit used : Nat) (part : List Char) : List Char → List (List Char)
  | [] => [part.reverse]
  | c :: r =>
    if used + cells c > limit then part.reverse :: chop limit (cells c) [c] r
    else chop limit (used + cells c) (c :: part) r

/-- Distribute words over lines. `line` is the line begun, `used` its width, and `start` says that
no word was placed yet. With `fold` long words are broken. -/
def fill (fold : Bool) (limit used : Nat) (start : Bool) (line : List Char) :
    List (List Char) → List (List Char)
  | [] => [line]
  | w :: ws =>
    let size := width (trimRight w)
    if used + size ≤ limit then fill fold limit (used + width w) false (line ++ w) ws
    else if size > limit then
      let parts := if fold then chop limit 0 [] w else [w]
      let last := parts.getLastD []
      let done := (if start then [] else [line]) ++ parts.dropLast
      done ++ fill fold limit (width last) false last ws
    else if used = 0 || start then fill fold limit used false (line ++ w) ws
    else line :: fill fold limit (width w) false w ws

/-- Drop blanks at the end that are beyond the limit. -/
def trimExcess (limit : Nat) (cs : List Char) : List Char :=
  let blanks := (cs.reverse.takeWhile isBlank).length
  if cs.length > limit then cs.take (cs.length - min blanks (cs.length - limit)) else cs

/-- As much of a text as fits; half of a wide character becomes a blank. -/
def cut (limit : Nat) : List Char → List Char
  | [] => []
  | c :: r =>
    if cells c ≤ limit then c :: cut (limit - cells c) r
    else List.replicate limit ' '

/-- How a line is placed. -/
inductive Alignment
  | none
  | left
  | center
  | right
  deriving DecidableEq, Repr

def blanks (n : Nat) : List Char := List.replicate n ' '

/-- Place a line within the limit. -/
def align (a : Alignment) (limit : Nat) (cs : List Char) : List Char :=
  match a with
  | .none => cs
  | .left => cs ++ blanks (limit - width cs)
  | .right =>
    let cs := trimRight cs
    blanks (limit - width cs) ++ cs
  | .center =>
    let cs := trimRight cs
    let before := (limit - width cs) / 2
    blanks before ++ cs ++ blanks (limit - width cs - before)

/-- Shorten a line that is too long; without `fold` a mark shows it. -/
def shorten (fold : Bool) (limit : Nat) (cs : List Char) : List Char :=
  if width cs ≤ limit then cs
  else if fold then cut limit cs
  else cut (limit - 1) cs ++ ['…']

/-- The lines of one line of text. -/
def wrapLine (a : Alignment) (fold : Bool) (limit : Nat) (cs : List Char) : List (List Char) :=
  let cs := expandTabs 0 cs
  let ws := words cs.length cs
  let lines := if ws = [] then [cs] else fill fold limit 0 true [] ws
  lines.map fun l => align a limit (shorten fold limit (trimExcess limit l))

/-- The lines of a text. -/
def wrap (a : Alignment) (fold : Bool) (limit : Nat) (cs : List Char) : List (List Char) :=
  ((cs.filter fun c => !movesCursor c).splitOn '\n').flatMap (wrapLine a fold limit)

end RouteCompiler.Console
