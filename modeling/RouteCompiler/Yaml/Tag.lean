import RouteCompiler.Yaml.Letter

/-!
The tags of YAML 1.1 that have a meaning here, and the tag a plain scalar gets from its text alone.
-/

namespace RouteCompiler.Yaml

inductive Tag
  | null | bool | int | float | str | binary | timestamp
  | seq | map | set | omap | pairs
  /-- The key whose value is merged into its mapping. -/
  | merge
  /-- The key whose value stands for its mapping. -/
  | value
  /-- A tag without a meaning. -/
  | unknown
  deriving DecidableEq, Repr, Inhabited

namespace Tag

/-- Where the names of the tags with a meaning live. -/
def root : String := "tag:yaml.org,2002:"

def names : List (String × Tag) :=
  [ ("null", null), ("bool", bool), ("int", int), ("float", float), ("str", str),
    ("binary", binary), ("timestamp", timestamp), ("seq", seq), ("map", map), ("set", set),
    ("omap", omap), ("pairs", pairs), ("merge", merge), ("value", value) ]

def ofUri (uri : String) : Tag :=
  match names.find? fun n => root ++ n.1 == uri with
  | some n => n.2
  | none => unknown

/-! ## Plain scalars -/

def nullWords : List String := ["", "~", "null", "Null", "NULL"]

def trueWords : List String := ["yes", "Yes", "YES", "true", "True", "TRUE", "on", "On", "ON"]

def falseWords : List String := ["no", "No", "NO", "false", "False", "FALSE", "off", "Off", "OFF"]

def isDigit (c : Char) : Bool := '0' ≤ c && c ≤ '9'

def isDigitOr_ (c : Char) : Bool := isDigit c || c = '_'

def dropSign : List Char → List Char
  | '-' :: r => r
  | '+' :: r => r
  | cs => cs

/-- Groups of base sixty: each a colon and one or two digits, the first of two at most five. -/
def isSixties : List Char → Bool
  | ':' :: a :: b :: r =>
    if isDigit b then '0' ≤ a && a ≤ '5' && (r.isEmpty || isSixties r)
    else isDigit a && isSixties (b :: r)
  | [':', a] => isDigit a
  | _ => false

/-- The groups of base sixty at the front must be followed by a point and digits. -/
def isSixtiesFloat (cs : List Char) : Bool :=
  let front := cs.takeWhile (· ≠ '.')
  match cs.dropWhile (· ≠ '.') with
  | '.' :: r => isSixties front && r.all isDigitOr_
  | _ => false

def isSignedExponent : List Char → Bool
  | [] => true
  | e :: s :: r => (e = 'e' || e = 'E') && (s = '+' || s = '-') && !r.isEmpty && r.all isDigit
  | _ => false

def isIntText (cs : List Char) : Bool :=
  match dropSign cs with
  | '0' :: 'b' :: r => !r.isEmpty && r.all fun c => c = '0' || c = '1' || c = '_'
  | '0' :: 'x' :: r => !r.isEmpty && r.all fun c => (Text.hexValue? c).isSome || c = '_'
  | '0' :: r => r.all fun c => ('0' ≤ c && c ≤ '7') || c = '_'
  | c :: r =>
    isDigit c && (r.all isDigitOr_ || isSixties (r.dropWhile isDigitOr_))
  | [] => false

def infinities : List String := [".inf", ".Inf", ".INF"]
def nans : List String := [".nan", ".NaN", ".NAN"]

def isFloatText (cs : List Char) : Bool :=
  let body := dropSign cs
  infinities.contains (String.ofList body) || nans.contains (String.ofList cs) ||
    match body with
    | '.' :: c :: r =>
      cs.head? = some '.' && isDigit c && isSignedExponent (r.dropWhile isDigitOr_)
    | c :: r =>
      isDigit c &&
        match r.dropWhile isDigitOr_ with
        | '.' :: r => isSignedExponent (r.dropWhile isDigitOr_)
        | r => isSixtiesFloat r
    | [] => false

/-- One or two digits at the front, as many as there are. -/
def upTo2Digits : List Char → Option (List Char × List Char)
  | a :: b :: r =>
    if isDigit a then (if isDigit b then some ([a, b], r) else some ([a], b :: r)) else none
  | [a] => if isDigit a then some ([a], []) else none
  | [] => none

def exactDigits (n : Nat) (cs : List Char) : Option (List Char × List Char) :=
  let ds := cs.take n
  if ds.length = n && ds.all isDigit then some (ds, cs.drop n) else none

def after (c : Char) : List Char → Option (List Char)
  | d :: r => if d = c then some r else none
  | [] => none

/-- The digits of a moment by part. The offset of `Z` is zero. -/
structure MomentText where
  year : List Char
  month : List Char
  day : List Char
  /-- Hour, minute, second and the fraction of a second. -/
  time : Option (List Char × List Char × List Char × List Char)
  /-- Whether the offset is negative, its hours and its minutes. -/
  offset : Option (Bool × List Char × List Char)

def offsetOf (cs : List Char) : Option (Option (Bool × List Char × List Char)) :=
  match cs.dropWhile isSpaceOrTab with
  | [] => if cs.isEmpty then some none else none
  | 'Z' :: r => if r.isEmpty then some (some (false, [], [])) else none
  | s :: r => do
    if s ≠ '+' && s ≠ '-' then none
    let (h, r) ← upTo2Digits r
    match r with
    | [] => return some (s = '-', h, [])
    | ':' :: r => do
      let (m, r) ← exactDigits 2 r
      if r.isEmpty then return some (s = '-', h, m) else none
    | _ => none

/-- Read the parts of a moment; month, day and hour may have one digit or two. -/
def momentText? (cs : List Char) : Option MomentText := do
  let (year, r) ← exactDigits 4 cs
  let (month, r) ← upTo2Digits (← after '-' r)
  let (day, r) ← upTo2Digits (← after '-' r)
  match r with
  | [] => return ⟨year, month, day, none, none⟩
  | c :: r' => do
    let r ← if c = 'T' || c = 't' then some r'
      else if isSpaceOrTab c then some (r'.dropWhile isSpaceOrTab) else none
    let (hour, r) ← upTo2Digits r
    let (minute, r) ← exactDigits 2 (← after ':' r)
    let (second, r) ← exactDigits 2 (← after ':' r)
    let (fraction, r) := match r with
      | '.' :: r => (r.takeWhile isDigit, r.dropWhile isDigit)
      | r => ([], r)
    return ⟨year, month, day, some (hour, minute, second, fraction), ← offsetOf r⟩

/-- The text of a plain scalar is a moment: a bare day has two digits for month and day. -/
def isMomentText (cs : List Char) : Bool :=
  match momentText? cs with
  | some m => m.time.isSome || (m.month.length = 2 && m.day.length = 2)
  | none => false

/-- The tag of a plain scalar with this text. -/
def ofPlain (cs : List Char) : Tag :=
  let s := String.ofList cs
  if nullWords.contains s then null
  else if trueWords.contains s || falseWords.contains s then bool
  else if isFloatText cs then float
  else if isIntText cs then int
  else if s == "<<" then merge
  else if isMomentText cs then timestamp
  else if s == "=" then value
  else str

/-- The text without one line feed at its end. -/
def dropLineFeed (cs : List Char) : List Char :=
  if cs.getLast? = some '\n' then cs.dropLast else cs

/-- The tag of a scalar with the mark alone: its text decides, but for a line feed at the end. -/
def ofMarked (cs : List Char) : Tag :=
  if cs = ['\n'] then str else ofPlain (dropLineFeed cs)

end Tag
end RouteCompiler.Yaml
