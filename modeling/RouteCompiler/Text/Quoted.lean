import RouteCompiler.Text.Blank
import RouteCompiler.Text.Points
import RouteCompiler.Text.Printable

/-!
Text in quotes: a text is shown between single quotes, or between double quotes if it holds a
single quote and no double one; the quote in use, backslashes and characters that cannot be shown
are escaped, and so are halves of surrogate pairs. Bytes are shown the same way behind a `b`.
-/

namespace RouteCompiler.Text

/-- Single quotes, unless the text has some and no double quotes. -/
def quoteFor (cs : List Char) : Char :=
  if cs.contains '\'' && !cs.contains '"' then '"' else '\''

def escapeShown (quote c : Char) : List Char :=
  if c = quote || c = '\\' then ['\\', c]
  else if c = '\n' then ['\\', 'n']
  else if c = '\r' then ['\\', 'r']
  else if c = '\t' then ['\\', 't']
  else if isPrintable c then [c]
  else if c.toNat ≤ 0xff then '\\' :: 'x' :: hexDigits 2 c.toNat
  else if c.toNat ≤ 0xffff then '\\' :: 'u' :: hexDigits 4 c.toNat
  else '\\' :: 'U' :: hexDigits 8 c.toNat

def escapePoint (quote : Char) : Point → List Char
  | .char c => escapeShown quote c
  | .half n => '\\' :: 'u' :: hexDigits 4 (Point.firstHalf + n)

def quotedChars (s : Points) : List Char :=
  let q := quoteFor s.toList
  q :: s.flatMap (escapePoint q) ++ [q]

def quoted (s : Points) : String := String.ofList (quotedChars s)

def escapeByte (quote : Char) (b : UInt8) : List Char :=
  let c := Char.ofNat b.toNat
  if b < 0x7f then escapeShown quote c else '\\' :: 'x' :: hexDigits 2 b.toNat

def quotedBytes (b : ByteArray) : String :=
  let q := quoteFor (b.toList.map fun x => Char.ofNat x.toNat)
  String.ofList ('b' :: q :: b.toList.flatMap (escapeByte q) ++ [q])

end RouteCompiler.Text
