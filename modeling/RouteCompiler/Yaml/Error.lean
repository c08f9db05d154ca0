/-!
Why a YAML text has no value. Most texts that have none are malformed; a few are refused by a
single scalar whose tag promises a number, a truth value or a moment that its text is not.
-/

namespace RouteCompiler.Yaml

inductive Error
  /-- The text is no single well-formed document of known tags. -/
  | malformed
  /-- An escape names a code point beyond the last character. -/
  | codePoint
  /-- An escape names a code point beyond 31 bits. -/
  | hugeCodePoint
  /-- A number, or a part of a moment, is out of its range or has other characters than digits. -/
  | number
  /-- A number has no characters. -/
  | emptyNumber
  /-- A number has so many groups of base sixty that the power for the first is out of range. -/
  | manyGroups
  | truthValue
  /-- A moment is not written as one. -/
  | momentForm
  /-- A moment is written as a mapping. -/
  | momentMapping
  deriving DecidableEq, Repr, Inhabited

end RouteCompiler.Yaml
