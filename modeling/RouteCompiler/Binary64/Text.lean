import RouteCompiler.Binary64.Basic

/-!
Floating-point numbers as text: the fewest digits that read back, and of those the nearest. Between
one ten-thousandth and ten to the sixteenth they stand positionally, with at least one decimal
place; beyond, with an exponent of at least two digits.
-/

namespace RouteCompiler.Binary64

/-- The exponent of the first decimal digit of `num / den`, for a positive ratio. -/
def decimalExponent (num den : Nat) : Int :=
  if den ≤ num then (digitCount (num / den) : Int) - 1
  else -(digitCount ((den + num - 1) / num - 1) : Int)

/-- The numbers that round to `m · 2 ^ q`, over the common denominator `den`. The ends belong to
them iff `m` is even. -/
structure Interval where
  low : Nat
  value : Nat
  high : Nat
  den : Nat
  closed : Bool

def interval (m : Nat) (q : Int) : Interval :=
  let scale := pow2 q.toNat
  let below := if m = pow2 52 && -1074 < q then 1 else 2
  ⟨(4 * m - below) * scale, 4 * m * scale, (4 * m + 2) * scale, 4 * pow2 (-q).toNat, m % 2 == 0⟩

/-- `k · 10 ^ p` rounds to the number. -/
def Interval.holds (i : Interval) (k : Nat) (p : Int) : Bool :=
  let x := k * pow10 p.toNat * i.den
  let unit := pow10 (-p).toNat
  if i.closed then i.low * unit ≤ x && x ≤ i.high * unit
  else i.low * unit < x && x < i.high * unit

/-- Of the two neighbours of the number on the grid of multiples of `10 ^ p`, the one that rounds
to it; of two such, the nearer, and of two equally near, the even one. -/
def Interval.onGrid (i : Interval) (p : Int) : Option Nat :=
  let num := i.value * pow10 (-p).toNat
  let den := i.den * pow10 p.toNat
  let k := num / den
  match i.holds k p, i.holds (k + 1) p with
  | true, true => some (roundRatio num den)
  | true, false => some k
  | false, true => some (k + 1)
  | false, false => none

/-- Try grids of ever more digits, the exponent of the first digit being `e`. -/
def Interval.search (i : Interval) (e : Int) : (steps digits : Nat) → Nat × Int
  | 0, n => (i.value * pow10 (-(e - n)).toNat / (i.den * pow10 (e - n).toNat), e - n)
  | s + 1, n =>
    let p := e - n
    match i.onGrid p with
    | some k => (k, p)
    | none => i.search e s (n + 1)

/-- Digits and exponent of the last digit, without zeros at the end. -/
def dropZeros : (fuel k : Nat) → Int → Nat × Int
  | 0, k, p => (k, p)
  | f + 1, k, p => if k % 10 = 0 && k != 0 then dropZeros f (k / 10) (p + 1) else (k, p)

/-- The shortest decimal `k · 10 ^ p` that rounds to `m · 2 ^ q`. -/
def shortest (m : Nat) (q : Int) : Nat × Int :=
  let i := interval m q
  let (k, p) := i.search (decimalExponent i.value i.den) 17 0
  dropZeros 20 k p

/-- How numbers are laid out: from which exponent of the first digit to which they stand without
an exponent, and how many digits an exponent has at least. -/
structure Layout where
  leastPositional : Int
  mostPositional : Int
  exponentDigits : Nat

def layout : Layout := ⟨-4, 15, 2⟩

def padZeros (width : Nat) (s : List Char) : List Char :=
  List.replicate (width - s.length) '0' ++ s

def Layout.write (l : Layout) (k : Nat) (p : Int) : List Char :=
  let ds := Nat.toDigits 10 k
  let e := p + ds.length - 1
  if l.leastPositional ≤ e && e ≤ l.mostPositional then
    if 0 ≤ p then ds ++ List.replicate p.toNat '0' ++ ['.', '0']
    else if 0 ≤ e then ds.take (e.toNat + 1) ++ '.' :: ds.drop (e.toNat + 1)
    else '0' :: '.' :: List.replicate ((-e).toNat - 1) '0' ++ ds
  else
    let point := if ds.length = 1 then ds else ds.take 1 ++ '.' :: ds.drop 1
    point ++ 'e' :: (if e < 0 then '-' else '+') ::
      padZeros l.exponentDigits (Nat.toDigits 10 e.natAbs)

def toText (x : Binary64) : String :=
  match x.meaning with
  | .nan => "nan"
  | .infinite negative => if negative then "-inf" else "inf"
  | .finite negative m q =>
    let s := if m = 0 then ['0', '.', '0'] else
      let (k, p) := shortest m q
      layout.write k p
    String.ofList (if negative then '-' :: s else s)

end RouteCompiler.Binary64
