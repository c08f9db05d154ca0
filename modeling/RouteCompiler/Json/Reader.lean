import RouteCompiler.Json.Basic

/-!
Reading JSON text. Beyond the standard the reader accepts `NaN` and the infinities as numbers; a
fault names its cause and the place where reading stopped. Integers of too many digits and
containers that are nested too deep are refused as such, wherever they stand.
-/

namespace RouteCompiler.Json

inductive FaultCause
  | byteOrderMark
  | value
  | propertyName
  | colon
  | comma
  | extraData
  | unterminatedString
  | controlCharacter
  | escape
  | unicodeEscape
  deriving DecidableEq, Repr

def FaultCause.text : FaultCause → String
  | .byteOrderMark => "Unexpected UTF-8 BOM (decode using utf-8-sig)"
  | .value => "Expecting value"
  | .propertyName => "Expecting property name enclosed in double quotes"
  | .colon => "Expecting ':' delimiter"
  | .comma => "Expecting ',' delimiter"
  | .extraData => "Extra data"
  | .unterminatedString => "Unterminated string starting at"
  | .controlCharacter => "Invalid control character at"
  | .escape => "Invalid \\escape"
  | .unicodeEscape => "Invalid \\uXXXX escape"

/-- What is wrong, and how many characters of the text are left from the place where it is. -/
structure Fault where
  cause : FaultCause
  left : Nat
  deriving DecidableEq, Repr

/-- The wording of a fault, with line and column counted from one and the offset from zero. -/
def Fault.message (f : Fault) (cs : List Char) : String :=
  let before := cs.take (cs.length - f.left)
  let line := before.count '\n' + 1
  let column := (before.reverse.takeWhile (· ≠ '\n')).length + 1
  s!"{f.cause.text}: line {line} column {column} (char {before.length})"

/-- Why a text is not read. -/
inductive Refusal
  | fault (f : Fault)
  /-- An integer has more digits than the reader converts. -/
  | longInteger
  /-- There is no room for another container within the open ones. -/
  | depth
  deriving DecidableEq, Repr

/-- The most digits of an integer. -/
def maxDigits : Nat := 4300

/-- The most containers that can be open at once; callers of the reader may take from it. -/
def nestingLimit : Nat := 1000

def isSpace (c : Char) : Bool := c = ' ' || c = '\t' || c = '\n' || c = '\r'

def skip (cs : List Char) : List Char := cs.dropWhile isSpace

def isDigit (c : Char) : Bool := '0' ≤ c && c ≤ '9'

def digitsValue (ds : List Char) : Nat := ds.foldl (fun n d => 10 * n + (d.toNat - 48)) 0

/-! ## Strings -/

def unescape : Char → Option Char
  | '"' => some '"'
  | '\\' => some '\\'
  | '/' => some '/'
  | 'b' => some '\x08'
  | 'f' => some '\x0c'
  | 'n' => some '\n'
  | 'r' => some '\r'
  | 't' => some '\t'
  | _ => none

/-- The value of the four hexadecimal digits at the front. -/
def hex4 : List Char → Option Nat
  | a :: b :: c :: d :: _ => do
    let a ← Text.hexValue? a
    let b ← Text.hexValue? b
    let c ← Text.hexValue? c
    let d ← Text.hexValue? d
    return ((a * 16 + b) * 16 + c) * 16 + d
  | _ => none

/-- The unit after a unit escape, if that is an escape too and more text follows. -/
def secondUnit (cs : List Char) : Option (Except Fault Point) :=
  match cs with
  | '\\' :: 'u' :: r =>
    if r.length < 5 then none
    else match hex4 r with
      | none => some (.error ⟨.unicodeEscape, r.length + 1⟩)
      | some n => some (.ok (.ofNat n))
  | _ => none

/-- Read a string up to its closing quote; `start` is what was left at the opening one. Two units
in a row that make one character are read as that. -/
def stringRest (start : Nat) (cs : List Char) (acc : Points) : Except Fault (Points × List Char) :=
  match cs with
  | [] => .error ⟨.unterminatedString, start⟩
  | '"' :: r => .ok (acc.reverse, r)
  | '\\' :: [] => .error ⟨.unterminatedString, start⟩
  | '\\' :: 'u' :: r =>
    if r.length < 5 then .error ⟨.unicodeEscape, r.length + 1⟩
    else match hex4 r with
      | none => .error ⟨.unicodeEscape, r.length + 1⟩
      | some n =>
        let p := Point.ofNat n
        match if p.opensPair then secondUnit (r.drop 4) else none with
        | none => stringRest start (r.drop 4) (p :: acc)
        | some (.error e) => .error e
        | some (.ok q) =>
          match p.paired? q with
          | some c => stringRest start (r.drop 10) (.char c :: acc)
          | none => stringRest start (r.drop 4) (p :: acc)
  | '\\' :: c :: r =>
    match unescape c with
    | some d => stringRest start r (.char d :: acc)
    | none => .error ⟨.escape, r.length + 2⟩
  | c :: r =>
    if c.toNat ≤ 0x1f then .error ⟨.controlCharacter, r.length + 1⟩
    else stringRest start r (.char c :: acc)
termination_by cs.length
decreasing_by all_goals simp only [List.length_cons, List.length_drop]; omega

/-! ## Numbers -/

/-- Digits after a point, if there are any. -/
def fractionOf : List Char → List Char × List Char
  | '.' :: r =>
    if r.head?.any isDigit then (r.takeWhile isDigit, r.dropWhile isDigit) else ([], '.' :: r)
  | cs => ([], cs)

/-- An exponent with its sign, if there is a complete one. -/
def exponentOf (cs : List Char) : Option Int × List Char :=
  match cs with
  | c :: r =>
    if c = 'e' || c = 'E' then
      let (negative, ds) := match r with
        | '-' :: ds => (true, ds)
        | '+' :: ds => (false, ds)
        | ds => (false, ds)
      if ds.head?.any isDigit then
        let n := digitsValue (ds.takeWhile isDigit)
        (some (if negative then -(n : Int) else n), ds.dropWhile isDigit)
      else (none, cs)
    else (none, cs)
  | [] => (none, cs)

/-- A number behind its sign: an integer, or a float if it has a fraction or an exponent. -/
def unsignedNumber (negative : Bool) (cs : List Char) :
    Option (Except Refusal (Json × List Char)) :=
  match cs with
  | [] => none
  | c :: r =>
    if isDigit c then
      let (whole, r) := if c = '0' then ([c], r) else (cs.takeWhile isDigit, cs.dropWhile isDigit)
      let (fraction, r) := fractionOf r
      let (exponent, r) := exponentOf r
      if fraction.isEmpty && exponent.isNone then
        let n := digitsValue whole
        if maxDigits < whole.length then some (.error .longInteger)
        else some (.ok (.int (if negative then -(n : Int) else n), r))
      else
        let e := exponent.getD 0 - fraction.length
        some (.ok (.float (Binary64.ofDecimal negative (digitsValue (whole ++ fraction)) e), r))
    else none

def number : List Char → Option (Except Refusal (Json × List Char))
  | '-' :: r => unsignedNumber true r
  | cs => unsignedNumber false cs

/-! ## Values -/

/-- The text after a word at the front. -/
def afterWord (w : String) (cs : List Char) : Option (List Char) :=
  if w.toList.isPrefixOf cs then some (cs.drop w.length) else none

/-- Words that are values. -/
def words : List (String × Json) :=
  [("null", .null), ("true", .bool true), ("false", .bool false), ("NaN", .float Binary64.nan),
   ("Infinity", .float (Binary64.infinity false)), ("-Infinity", .float (Binary64.infinity true))]

def word (cs : List Char) : Option (Json × List Char) :=
  words.findSome? fun w => (afterWord w.1 cs).map fun r => (w.2, r)

def scalar (cs : List Char) : Except Refusal (Json × List Char) :=
  match word cs with
  | some a => .ok a
  | none => (number cs).getD (.error (.fault ⟨.value, cs.length⟩))

/-- A string behind its opening quote. -/
def string (r : List Char) : Except Refusal (Points × List Char) :=
  (stringRest (r.length + 1) r []).mapError .fault

mutual
/-- Read one value. `room` is how many containers may still be opened within each other. The number
bounds the containers and items opened so far; twice the length of the text is always enough. -/
def value (room : Nat) : Nat → List Char → Except Refusal (Json × List Char)
  | 0, cs => .error (.fault ⟨.value, cs.length⟩)
  | _, '"' :: r => do
    let (s, r) ← string r
    return (.str s, r)
  | f + 1, '[' :: r =>
    match room with
    | 0 => .error .depth
    | room + 1 =>
      match skip r with
      | ']' :: r => .ok (.arr [], r)
      | r => do
        let (items, r) ← itemsRest room f r
        return (.arr items, r)
  | f + 1, '\x7b' :: r =>
    match room with
    | 0 => .error .depth
    | room + 1 =>
      match skip r with
      | '\x7d' :: r => .ok (.obj [], r)
      | r => do
        let (members, r) ← membersRest room f r
        return (ofMembers members, r)
  | _, cs => scalar cs

def itemsRest (room : Nat) : Nat → List Char → Except Refusal (List Json × List Char)
  | 0, cs => .error (.fault ⟨.value, cs.length⟩)
  | f + 1, cs => do
    let (v, r) ← value room f cs
    match skip r with
    | ']' :: r => return ([v], r)
    | ',' :: r => do
      let (items, r) ← itemsRest room f (skip r)
      return (v :: items, r)
    | r => .error (.fault ⟨.comma, r.length⟩)

def membersRest (room : Nat) : Nat → List Char → Except Refusal (List (Points × Json) × List Char)
  | 0, cs => .error (.fault ⟨.propertyName, cs.length⟩)
  | f + 1, '"' :: r => do
    let (k, r) ← string r
    match skip r with
    | ':' :: r => do
      let (v, r) ← value room f (skip r)
      match skip r with
      | '\x7d' :: r => return ([(k, v)], r)
      | ',' :: r => do
        let (members, r) ← membersRest room f (skip r)
        return ((k, v) :: members, r)
      | r => .error (.fault ⟨.comma, r.length⟩)
    | r => .error (.fault ⟨.colon, r.length⟩)
  | _, cs => .error (.fault ⟨.propertyName, cs.length⟩)
end

/-- Read a text that holds one value and blanks around it, with room for so many containers within
each other. -/
def readWithin (room : Nat) (cs : List Char) : Except Refusal Json :=
  if cs.head? = some '\ufeff' then .error (.fault ⟨.byteOrderMark, cs.length⟩)
  else do
    let (v, r) ← value room (2 * cs.length + 1) (skip cs)
    match skip r with
    | [] => return v
    | r => .error (.fault ⟨.extraData, r.length⟩)

def read (s : String) : Except Refusal Json := readWithin nestingLimit s.toList

end RouteCompiler.Json
