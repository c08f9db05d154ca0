import RouteCompiler.Text.Base64
import RouteCompiler.Yaml.Value.Basic

/-!
The values of scalars by tag. A tag may be given to any text; then a number may have blanks around
it and digits of any script, and a text that is none is refused. Halves of surrogate pairs are part
of no number, word or moment, and neither is the character that is read in their place.
-/

namespace RouteCompiler.Yaml.Scalar

/-! ## Numbers -/

/-- A digit of any script, or a letter standing for ten and up. -/
def digitIn (base : Nat) (c : Char) : Option Nat :=
  match Text.digitValue? c with
  | some d => if d < base then some d else none
  | none => (Text.hexValue? c).bind fun d => if d < base then some d else none

def digitsIn (base : Nat) (cs : List Char) : Option Nat :=
  if cs.isEmpty then none
  else cs.foldlM (fun n c => (digitIn base c).map (base * n + ·)) 0

/-- The letter that may mark a base, behind a zero. -/
def baseLetter (base : Nat) : Option Char :=
  if base = 2 then some 'b' else if base = 8 then some 'o' else if base = 16 then some 'x' else none

def dropBaseMark (base : Nat) (cs : List Char) : List Char :=
  match cs with
  | '0' :: c :: r => if baseLetter base = some c.toLower then r else cs
  | _ => cs

/-- The information separators do not count as blanks of a number. -/
def trim (cs : List Char) : List Char :=
  Text.trimBy (fun c => Text.isBlank c && !('\x1c' ≤ c && c ≤ '\x1f')) cs

def signed (cs : List Char) : Bool × List Char :=
  match cs with
  | '-' :: r => (true, r)
  | '+' :: r => (false, r)
  | _ => (false, cs)

def applySign (negative : Bool) (i : Int) : Int := if negative then -i else i

/-- An integer with an optional sign, and an optional mark of its base. -/
def integer (base : Nat) (cs : List Char) : Except Error Int :=
  let (negative, cs) := signed (trim cs)
  match digitsIn base (dropBaseMark base cs) with
  | some n => .ok (applySign negative n)
  | none => .error .number

/-- Split at every colon. -/
def splitColons (cs : List Char) : List (List Char) := cs.splitOn ':'

/-- The integer of a scalar: binary, octal and hexadecimal by prefix, and groups of base sixty. -/
def int (cs : List Char) : Except Error Int :=
  match cs.filter (· ≠ '_') with
  | [] => .error .emptyNumber
  | c :: r =>
    let negative := c = '-'
    let cs := if c = '-' || c = '+' then r else c :: r
    (applySign negative ·) <$>
      match cs with
      | [] => .error .emptyNumber
      | ['0'] => .ok 0
      | '0' :: 'b' :: r => integer 2 r
      | '0' :: 'x' :: r => integer 16 r
      | '0' :: _ => integer 8 cs
      | _ =>
        if cs.contains ':' then do
          let parts ← (splitColons cs).mapM (integer 10)
          return parts.foldl (fun n p => 60 * n + p) 0
        else integer 10 cs

/-- The digits of a decimal number: before the point, behind it, and the exponent. -/
def decimal? (cs : List Char) : Option (List Char × List Char × Int) :=
  let isD := fun c => (Text.digitValue? c).isSome
  let whole := cs.takeWhile isD
  let r := cs.dropWhile isD
  let (fraction, r) := match r with
    | '.' :: r => (r.takeWhile isD, r.dropWhile isD)
    | r => ([], r)
  if whole.isEmpty && fraction.isEmpty then none
  else match r with
    | [] => some (whole, fraction, 0)
    | e :: r =>
      if e = 'e' || e = 'E' then
        let (negative, ds) := signed r
        (digitsIn 10 ds).map fun n => (whole, fraction, applySign negative n)
      else none

/-- A floating-point number as it is commonly written. -/
def real (cs : List Char) : Except Error Binary64 :=
  let (negative, cs) := signed (trim cs)
  if ["inf", "infinity"].contains (String.ofList cs) then .ok (Binary64.infinity negative)
  else if "nan" == String.ofList cs then .ok Binary64.nan
  else match decimal? cs with
    | some (whole, fraction, e) =>
      let n := (digitsIn 10 (whole ++ fraction)).getD 0
      .ok (Binary64.ofDecimal negative n (e - fraction.length))
    | none => .error .number

/-- The powers of sixty that are in the range of numbers. -/
def maxGroups : Nat := 174

/-- The sum of parts over groups of base sixty, the last part counting once. Every product and every
sum is rounded. -/
def sixties (parts : List Binary64) : Except Error Binary64 :=
  if maxGroups < parts.length then .error .manyGroups
  else
    let products := parts.reverse.mapIdx fun k x => x.mul (Binary64.ofRatio false (Nat.pow 60 k) 1)
    .ok (products.foldl Binary64.add (Binary64.zero false))

def float (cs : List Char) : Except Error Binary64 :=
  match (cs.filter (· ≠ '_')).map Char.toLower with
  | [] => .error .emptyNumber
  | c :: r =>
    let negative := c = '-'
    let cs := if c = '-' || c = '+' then r else c :: r
    (fun x => if negative then x.neg else x) <$>
      if String.ofList cs == ".inf" then .ok (Binary64.infinity false)
      else if String.ofList cs == ".nan" then .ok Binary64.nan
      else if cs.contains ':' then do sixties (← (splitColons cs).mapM real)
      else real cs

/-! ## All tags -/

/-- The words of truth values, in lower case. -/
def truthWords : List (String × Bool) :=
  [ ("yes", true), ("no", false), ("true", true), ("false", false), ("on", true), ("off", false) ]

def bool (cs : List Char) : Except Error Bool :=
  match truthWords.lookup (String.ofList (cs.map Char.toLower)) with
  | some b => .ok b
  | none => .error .truthValue

def binary (cs : List Char) : Except Error ByteArray :=
  if cs.all fun c => c.toNat < 0x80 then
    match Text.Base64.decode? (String.ofList cs) with
    | some b => .ok b
    | none => .error .malformed
  else .error .malformed

/-- The value of a scalar; tags of collections and unknown tags fit no scalar. -/
def value (tag : Tag) (s : Points) : Except Error Value :=
  match tag with
  | .null => .ok .null
  | .bool => .bool <$> bool s.toList
  | .int => .int <$> int s.toList
  | .float => .float <$> float s.toList
  | .str => .ok (.text s)
  | .binary => .bytes <$> binary s.toList
  | .timestamp => .moment <$> Moment.ofText s.toList
  | .seq | .map | .set | .omap | .pairs | .merge | .value | .unknown => .error .malformed

end RouteCompiler.Yaml.Scalar
