/-!
Line ends of text files: a carriage return, alone or before a line feed, reads as a line feed.
-/

namespace RouteCompiler.Text

def unifyLineEnds : List Char → List Char
  | '\r' :: '\n' :: r => '\n' :: unifyLineEnds r
  | '\r' :: r => '\n' :: unifyLineEnds r
  | c :: r => c :: unifyLineEnds r
  | [] => []

/-- The text of a file in UTF-8. -/
def ofBytes? (b : ByteArray) : Option String :=
  (String.fromUTF8? b).map fun s => String.ofList (unifyLineEnds s.toList)

end RouteCompiler.Text
