import RouteCompiler.Yaml.Tag

/-!
Days and times of the Gregorian calendar. Two times with offsets are the same if they name the same
instant; a time without an offset is never the same as one with.
-/

namespace RouteCompiler.Yaml

inductive Moment
  | day (year month day : Nat)
  /-- The offset counts minutes; the fraction, microseconds. -/
  | time (year month day hour minute second fraction : Nat) (offset : Option Int)
  deriving DecidableEq, Repr

namespace Moment

def isLeap (y : Nat) : Bool := y % 4 == 0 && (y % 100 != 0 || y % 400 == 0)

def monthLength (y m : Nat) : Nat :=
  if m = 2 then (if isLeap y then 29 else 28)
  else if m = 4 || m = 6 || m = 9 || m = 11 then 30 else 31

def isDay (y m d : Nat) : Bool :=
  1 ≤ y && y ≤ 9999 && 1 ≤ m && m ≤ 12 && 1 ≤ d && d ≤ monthLength y m

/-- Days since the day before the first of January of year one. -/
def ordinal (y m d : Nat) : Nat :=
  let p := y - 1
  p * 365 + p / 4 - p / 100 + p / 400 +
    (List.range (m - 1)).foldl (fun n i => n + monthLength y (i + 1)) 0 + d

/-- Microseconds on the calendar, without the offset. -/
def microseconds : Moment → Int
  | .day y m d => ordinal y m d * 86400000000
  | .time y m d h mi s f _ =>
    (((ordinal y m d * 24 + h : Nat) * 60 + mi) * 60 + s : Int) * 1000000 + f

def same (a b : Moment) : Bool :=
  match a, b with
  | .day .., .day .. => a = b
  | .time _ _ _ _ _ _ _ (some o), .time _ _ _ _ _ _ _ (some o') =>
    a.microseconds - o * 60000000 == b.microseconds - o' * 60000000
  | .time _ _ _ _ _ _ _ none, .time _ _ _ _ _ _ _ none => a.microseconds == b.microseconds
  | _, _ => false

def number (ds : List Char) : Nat := ds.foldl (fun n d => 10 * n + (d.toNat - 48)) 0

/-- The first six digits of a fraction of a second, as microseconds. -/
def fractionNumber (ds : List Char) : Nat :=
  let ds := ds.take 6
  number (ds ++ List.replicate (6 - ds.length) '0')

/-- The moment that a text in the form of a moment names; a line feed may follow. -/
def ofText (cs : List Char) : Except Error Moment :=
  match Tag.momentText? (Tag.dropLineFeed cs) with
  | none => .error .momentForm
  | some t =>
    let (y, m, d) := (number t.year, number t.month, number t.day)
    match t.time with
    | none => if isDay y m d then .ok (.day y m d) else .error .number
    | some (h, mi, s, f) =>
      let (h, mi, s) := (number h, number mi, number s)
      let offset := t.offset.map fun o =>
        let n : Int := number o.2.1 * 60 + number o.2.2
        if o.1 then -n else n
      if isDay y m d && h < 24 && mi < 60 && s < 60 && offset.all (·.natAbs < 1440) then
        .ok (.time y m d h mi s (fractionNumber f) offset)
      else .error .number

/-- Numbers with commas between them; zeros among the last two are left out from the end. -/
def shownNumbers (required : List Nat) (second fraction : Nat) : String :=
  let optional := if fraction = 0 then (if second = 0 then [] else [second]) else [second, fraction]
  ", ".intercalate ((required ++ optional).map toString)

def shownOffset (o : Int) : String :=
  if o = 0 then "datetime.timezone.utc"
  else
    let seconds := o * 60
    let days := seconds / 86400
    let parts := (if days = 0 then [] else [s!"days={days}"]) ++ [s!"seconds={seconds % 86400}"]
    "datetime.timezone(datetime.timedelta(" ++ ", ".intercalate parts ++ "))"

/-- The text that names the moment in the location of a problem. -/
def shown : Moment → String
  | .day y m d => s!"datetime.date({y}, {m}, {d})"
  | .time y m d h mi s f o =>
    let offset := match o with
      | none => ""
      | some o => s!", tzinfo={shownOffset o}"
    s!"datetime.datetime({shownNumbers [y, m, d, h, mi] s f}{offset})"

end Moment
end RouteCompiler.Yaml
