import RouteCompiler.OrderedMap
import RouteCompiler.Schema.Problem

/-!
Reading fields, texts, truth values, lists, maps and records from a document. What is read is text
of characters: two halves of a surrogate pair in a row become the character they make, and a half
alone the replacement character.
-/

namespace RouteCompiler.Schema

open Yaml (Value)

variable {α : Type}

/-! ## Scalars -/

/-- Which values besides strings and bytes read as text. -/
structure TextRule where
  numbers : Bool
  truths : Bool

/-- Strings alone. -/
def strictText : TextRule := ⟨false, false⟩
/-- Strings and numbers. -/
def plainText : TextRule := ⟨true, false⟩
/-- Strings, numbers and truth values. -/
def scalarText : TextRule := ⟨true, true⟩

def text (rule : TextRule) : Value → Checked String
  | .text s => .ok s.toUnicode
  | .bytes b =>
    match String.fromUTF8? b with
    | some s => .ok s
    | none => .refuse .textBytes
  | .int i => if rule.numbers then .ok (toString i) else .refuse .text
  | .float x => if rule.numbers then .ok x.toText else .refuse .text
  | .bool b => if rule.truths then .ok (if b then "true" else "false") else .refuse .text
  | _ => .refuse .text

def trueWords : List String := ["1", "t", "true", "y", "yes", "on"]
def falseWords : List String := ["0", "f", "false", "n", "no", "off"]

def truthOfText (s : String) : Checked Bool :=
  let w := String.ofList (s.toList.map Char.toLower)
  if trueWords.contains w then .ok true
  else if falseWords.contains w then .ok false
  else .refuse .truthWord

/-- Integers of 64 bits. -/
def isWord (i : Int) : Bool := -9223372036854775808 ≤ i && i < 9223372036854775808

def truthOfInt (i : Int) : Checked Bool :=
  if i = 0 then .ok false else if i = 1 then .ok true
  else if isWord i then .refuse .truthWord else .refuse .truth

/-- Truth values, the words and the numbers 0 and 1 for them. A number with a fraction or of more
than 64 bits is no candidate at all, and neither is a text that is not all characters. -/
def truth : Value → Checked Bool
  | .bool b => .ok b
  | .text s =>
    match s.string? with
    | some s => truthOfText s
    | none => .refuse .textBytes
  | .bytes b =>
    match String.fromUTF8? b with
    | some s => truthOfText s
    | none => .refuse .truthWord
  | .int i => truthOfInt i
  | .float x =>
    match x.toInt? with
    | some i => truthOfInt i
    | none => .refuse .truth
  | _ => .refuse .truth

/-! ## Records -/

abbrev Entries := List (Value × Value)

/-- A field as documents spell it, and the other spelling that is accepted in its absence. -/
structure Field where
  name : String
  other : String

/-- The value of a field, with the spelling under which it was found. -/
def Field.find (f : Field) (es : Entries) : Option (String × Value) :=
  match Value.entry? f.name es with
  | some v => some (f.name, v)
  | none => (Value.entry? f.other es).map fun v => (f.other, v)

def record (name : String) (read : Entries → Checked α) : Value → Checked α
  | .map es => read es
  | _ => .refuse (.record name)

def required (f : Field) (read : Value → Checked α) (es : Entries) : Checked α :=
  match f.find es with
  | some (k, v) => Checked.within (.key k) (read v)
  | none => Checked.within (.key f.name) (.refuse .present)

def withDefault (f : Field) (default : α) (read : Value → Checked α) (es : Entries) : Checked α :=
  match f.find es with
  | some (k, v) => Checked.within (.key k) (read v)
  | none => .ok default

/-- Null stands for no value. -/
def orNull (read : Value → Checked α) : Value → Checked (Option α)
  | .null => .ok none
  | v => some <$> read v

def optional (f : Field) (read : Value → Checked α) (es : Entries) : Checked (Option α) :=
  withDefault f none (orNull read) es

/-! ## Collections -/

/-- Read items under their positions, which start at `i`. -/
def itemsFrom (read : Value → Checked α) (i : Nat) : List Value → Checked (List α)
  | [] => .ok []
  | v :: r => (· :: ·) <$> Checked.within (.index i) (read v) <*> itemsFrom read (i + 1) r

def list (read : Value → Checked α) : Value → Checked (List α)
  | .seq vs | .set vs => itemsFrom read 0 vs
  | _ => .refuse .list

/-- A text where a half of a surrogate pair counts as three bytes without a meaning. -/
def placeText (s : Points) : String :=
  String.ofList (s.flatMap fun
    | .char c => [c]
    | .half _ => List.replicate 3 '\ufffd')

@[simp] theorem placeText_ofString (s : String) : placeText s = s := by
  simp [placeText, Points.ofString, List.flatMap_map]

/-- How the key of a map is named in a location: an integer by its value, any other value but a
text by its shown text. -/
def keyPlace : Value → Place
  | .text s => .key (placeText s)
  | .bool b => .index (if b then 1 else 0)
  | .int i => if isWord i then .index i else .key (toString i)
  | .null => .key "None"
  | .float x => .key x.toText
  | .bytes b => .key (Text.quotedBytes b)
  | .moment m => .key m.shown
  | .seq _ | .map _ | .set _ => .key ""

/-- Read the entries of a map. A bad key and a bad value of one entry are both reported. -/
def mapEntries (read : Value → Checked α) : Entries → Checked (List (String × α))
  | [] => .ok []
  | (k, v) :: r =>
    (fun k v es => (k, v) :: es)
      <$> Checked.within (keyPlace k) (Checked.within (.key "[key]") (text plainText k))
      <*> Checked.within (keyPlace k) (read v)
      <*> mapEntries read r

/-- Keys that become equal as texts are one key, which keeps the last value. -/
def map (read : Value → Checked α) : Value → Checked (OrderedMap String α)
  | .map es => OrderedMap.ofList <$> mapEntries read es
  | _ => .refuse .map

end RouteCompiler.Schema
