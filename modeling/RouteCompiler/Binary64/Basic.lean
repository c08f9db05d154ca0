/-!
Floating-point numbers as 64-bit words: one sign bit, eleven exponent bits and 52 fraction bits.
Finite words stand for `± m · 2 ^ q`; a positive ratio is rounded to the nearest such number, an
exact tie to the one with an even significand.
-/

namespace RouteCompiler

structure Binary64 where
  bits : UInt64
  deriving DecidableEq, Repr, Inhabited

namespace Binary64

def pow2 (k : Nat) : Nat := Nat.pow 2 k
def pow10 (k : Nat) : Nat := Nat.pow 10 k

/-- What a word stands for; `finite negative m q` is `± m · 2 ^ q`. -/
inductive Meaning
  | nan
  | infinite (negative : Bool)
  | finite (negative : Bool) (m : Nat) (q : Int)
  deriving DecidableEq, Repr

def meaning (x : Binary64) : Meaning :=
  let n : Nat := x.bits.toNat
  let negative := decide (n / pow2 63 = 1)
  let e : Nat := n / pow2 52 % 2048
  let f : Nat := n % pow2 52
  if e = 2047 then if f = 0 then .infinite negative else .nan
  else if e = 0 then .finite negative f (-1074)
  else .finite negative (pow2 52 + f) ((e : Int) - 1075)

def pack (negative : Bool) (e f : Nat) : Binary64 :=
  ⟨UInt64.ofNat ((if negative then pow2 63 else 0) + e * pow2 52 + f)⟩

def infinity (negative : Bool) : Binary64 := pack negative 2047 0
def nan : Binary64 := pack false 2047 (pow2 51)
def zero (negative : Bool) : Binary64 := pack negative 0 0

/-- The integer nearest to `num / den`, a tie going to the even one. -/
def roundRatio (num den : Nat) : Nat :=
  let k := num / den
  let twice := 2 * (num % den)
  if twice < den then k else if den < twice then k + 1 else if k % 2 = 0 then k else k + 1

/-- The largest `q` with `2 ^ q ≤ num / den`, for a positive ratio. -/
def floorLog2 (num den : Nat) : Int :=
  if den ≤ num then (num / den).log2
  else -(((den + num - 1) / num - 1).log2 + 1 : Nat)

/-- The word nearest to `num / den`; infinite if that is beyond the largest finite number. -/
def ofRatio (negative : Bool) (num den : Nat) : Binary64 :=
  if num = 0 then zero negative else
  let q := max (floorLog2 num den - 52) (-1074)
  let m :=
    if 0 ≤ q then roundRatio num (den * pow2 q.toNat) else roundRatio (num * pow2 (-q).toNat) den
  let (m, q) := if m = pow2 53 then (pow2 52, q + 1) else (m, q)
  if m < pow2 52 then pack negative 0 m
  else
    let e := (q + 1075).toNat
    if e < 2047 then pack negative e (m - pow2 52) else infinity negative

/-- Decimal digits of a number. -/
def digitCount (n : Nat) : Nat := (Nat.toDigits 10 n).length

/-- The word nearest to `± significand · 10 ^ exponent`. -/
def ofDecimal (negative : Bool) (significand : Nat) (exponent : Int) : Binary64 :=
  if significand = 0 then zero negative
  else if 400 < exponent + digitCount significand then infinity negative
  else if exponent + digitCount significand < -400 then zero negative
  else if 0 ≤ exponent then ofRatio negative (significand * pow10 exponent.toNat) 1
  else ofRatio negative significand (pow10 (-exponent).toNat)

/-- `m · 2 ^ q` as a fraction. -/
def fraction (m : Nat) (q : Int) : Nat × Nat :=
  if 0 ≤ q then (m * pow2 q.toNat, 1) else (m, pow2 (-q).toNat)

def signed (negative : Bool) (n : Nat) : Int := if negative then -(n : Int) else n

/-- The exact value as a fraction with its sign, for finite words. -/
def ratio? (x : Binary64) : Option (Int × Nat) :=
  match x.meaning with
  | .finite negative m q =>
    let (num, den) := fraction m q
    some (signed negative num, den)
  | _ => none

/-- The integer a word stands for, if it stands for one. -/
def toInt? (x : Binary64) : Option Int :=
  match x.ratio? with
  | some (num, den) => if num % den = 0 then some (num / den) else none
  | none => none

def isZero (x : Binary64) : Bool :=
  match x.meaning with
  | .finite _ m _ => m == 0
  | _ => false

/-! ## Arithmetic -/

def neg (x : Binary64) : Binary64 := ⟨x.bits ^^^ 0x8000000000000000⟩

/-- The word nearest to the product. -/
def mul (x y : Binary64) : Binary64 :=
  match x.meaning, y.meaning with
  | .nan, _ | _, .nan => nan
  | .infinite s, .infinite t => infinity (s != t)
  | .infinite s, .finite t m _ | .finite t m _, .infinite s =>
    if m = 0 then nan else infinity (s != t)
  | .finite s m q, .finite t n r =>
    let (a, b) := fraction m q
    let (c, d) := fraction n r
    ofRatio (s != t) (a * c) (b * d)

/-- The word nearest to the sum; a sum of zero is negative only if both sides are. -/
def add (x y : Binary64) : Binary64 :=
  match x.meaning, y.meaning with
  | .nan, _ | _, .nan => nan
  | .infinite s, .infinite t => if s = t then infinity s else nan
  | .infinite s, .finite .. | .finite .., .infinite s => infinity s
  | .finite s m q, .finite t n r =>
    let (a, b) := fraction m q
    let (c, d) := fraction n r
    let sum := signed s (a * d) + signed t (c * b)
    if sum = 0 then zero (s && t) else ofRatio (sum < 0) sum.natAbs (b * d)

end Binary64
end RouteCompiler
