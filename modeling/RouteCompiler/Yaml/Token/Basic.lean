import RouteCompiler.Text.Points
import RouteCompiler.Yaml.Lexeme.Mark

/-!
The tokens of a YAML text. Indentation shows as tokens that open and close block collections; a key
without its mark is announced by a `key` token in front of it.
-/

namespace RouteCompiler.Yaml

inductive Token
  | directive (d : Directive)
  | documentStart
  | documentEnd
  | blockSeqStart
  | blockMapStart
  | blockEnd
  | flowSeqStart
  | flowSeqEnd
  | flowMapStart
  | flowMapEnd
  | blockEntry
  | flowEntry
  | key
  | value
  | alias (name : String)
  | anchor (name : String)
  | tag (t : WrittenTag)
  | scalar (text : Points) (plain : Bool)
  deriving DecidableEq, Repr

end RouteCompiler.Yaml
