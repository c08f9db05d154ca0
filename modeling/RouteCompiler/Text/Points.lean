/-!
Text as code points. An escape in a document names a code point by its number, and that may be one
half of a surrogate pair, which is no character. Texts that are read from escapes are therefore
lists of points; they become texts of characters where a schema asks for these.
-/

namespace RouteCompiler

inductive Point
  | char (c : Char)
  /-- A half of a surrogate pair, counted from the first one. -/
  | half (n : Fin 0x800)
  deriving DecidableEq, Repr, Inhabited

namespace Point

def firstHalf : Nat := 0xd800

/-- The point of a number up to that of the last character. -/
def ofNat (n : Nat) : Point :=
  if h : firstHalf ≤ n ∧ n < firstHalf + 0x800 then .half ⟨n - firstHalf, by omega⟩
  else .char (Char.ofNat n)

/-- The character of a point, or the replacement character for a half. -/
def toChar : Point → Char
  | .char c => c
  | .half _ => '\ufffd'

def isChar : Point → Bool
  | .char _ => true
  | .half _ => false

/-- The point is one of the halves that come first in a pair. -/
def opensPair : Point → Bool
  | .half n => n < 0x400
  | .char _ => false

/-- The character that two halves make. -/
def paired? : Point → Point → Option Char
  | .half m, .half n =>
    if m < 0x400 && 0x400 ≤ n then
      some (Char.ofNat (0x10000 + m.val * 0x400 + (n.val - 0x400)))
    else none
  | _, _ => none

end Point

abbrev Points := List Point

namespace Points

def ofString (s : String) : Points := s.toList.map .char

instance : Coe String Points := ⟨ofString⟩

/-- The points one by one as characters. -/
def toList (s : Points) : List Char := s.map Point.toChar

/-- The text of the points, if all of them are characters. -/
def string? (s : Points) : Option String :=
  if s.all Point.isChar then some (String.ofList s.toList) else none

/-- The characters of the points, two halves that make one being joined. -/
def joinedChars : Points → List Char
  | p :: q :: r =>
    match p.paired? q with
    | some c => c :: joinedChars r
    | none => p.toChar :: joinedChars (q :: r)
  | [p] => [p.toChar]
  | [] => []

/-- The text of characters. -/
def toUnicode (s : Points) : String := String.ofList s.joinedChars

/-! ## Texts of characters -/

@[simp] theorem toList_map_char (cs : List Char) : toList (cs.map .char) = cs := by
  simp [toList, Function.comp_def, Point.toChar]

@[simp] theorem toList_ofString (s : String) : (ofString s).toList = s.toList :=
  toList_map_char s.toList

@[simp] theorem ofString_inj {s t : String} : ofString s = ofString t ↔ s = t := by
  constructor
  · intro h
    have h := congrArg toList h
    rwa [toList_ofString, toList_ofString, String.toList_inj] at h
  · exact congrArg ofString

@[simp] theorem string?_ofString (s : String) : (ofString s).string? = some s := by
  have hall : (ofString s).all Point.isChar = true := by simp [ofString, Point.isChar]
  rw [string?, if_pos hall, toList_ofString, String.ofList_toList]

theorem map_char_toList {s : Points} (h : ∀ p ∈ s, p.isChar = true) : s.toList.map .char = s := by
  induction s with
  | nil => rfl
  | cons p s ih =>
    have hs := ih fun q hq => h q (List.mem_cons_of_mem p hq)
    cases p with
    | char c => exact congrArg (.char c :: ·) hs
    | half n => cases h _ List.mem_cons_self

theorem eq_ofString_of_string? {s : Points} {t : String} (h : s.string? = some t) :
    s = ofString t := by
  rw [string?] at h
  split at h
  next hall =>
    obtain rfl := Option.some.inj h
    rw [ofString, String.toList_ofList, map_char_toList (List.all_eq_true.1 hall)]
  next => cases h

theorem string?_eq_some_iff {s : Points} {t : String} : s.string? = some t ↔ s = ofString t :=
  ⟨eq_ofString_of_string?, fun h => h ▸ string?_ofString t⟩

theorem joinedChars_map_char (cs : List Char) : joinedChars (cs.map .char) = cs := by
  induction cs with
  | nil => rfl
  | cons c cs ih =>
    cases cs with
    | nil => rfl
    | cons d cs => exact congrArg (c :: ·) ih

@[simp] theorem toUnicode_ofString (s : String) : (ofString s).toUnicode = s := by
  rw [toUnicode, ofString, joinedChars_map_char, String.ofList_toList]

end Points
end RouteCompiler
