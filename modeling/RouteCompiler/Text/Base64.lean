/-!
Base 64. Reading skips characters outside the alphabet and stops behind the padding that completes
a group; a group that is cut short is refused.
-/

namespace RouteCompiler.Text.Base64

def alphabet : List Char :=
  "ABCDEFGHIJKLMNOPQRSTUVWXYZabcdefghijklmnopqrstuvwxyz0123456789+/".toList

def digit (n : Nat) : Char := alphabet.getD n 'A'

def sextet? (c : Char) : Option Nat := alphabet.findIdx? (· == c)

def encodeChars : List UInt8 → List Char
  | a :: b :: c :: r =>
    let n := (a.toNat * 256 + b.toNat) * 256 + c.toNat
    digit (n / 262144) :: digit (n / 4096 % 64) :: digit (n / 64 % 64) :: digit (n % 64) ::
      encodeChars r
  | [a, b] =>
    let n := (a.toNat * 256 + b.toNat) * 4
    [digit (n / 4096), digit (n / 64 % 64), digit (n % 64), '=']
  | [a] => [digit (a.toNat / 4), digit (a.toNat % 4 * 16), '=', '=']
  | [] => []

def encode (b : ByteArray) : String := String.ofList (encodeChars b.toList)

/-- Read on at `position` in a group of four, `carry` being the bits not yet written. -/
def decodeChars (position carry pads : Nat) : List Char → Option (List UInt8)
  | [] => if position = 0 then some [] else none
  | c :: r =>
    if c = '=' then
      if 2 ≤ position && 4 ≤ position + pads + 1 then some []
      else decodeChars position carry (if 2 ≤ position then pads + 1 else pads) r
    else
      match sextet? c with
      | none => decodeChars position carry pads r
      | some d =>
        match position with
        | 0 => decodeChars 1 d 0 r
        | 1 => (decodeChars 2 (d % 16) 0 r).map (UInt8.ofNat (carry * 4 + d / 16) :: ·)
        | 2 => (decodeChars 3 (d % 4) 0 r).map (UInt8.ofNat (carry * 16 + d / 4) :: ·)
        | _ => (decodeChars 0 0 0 r).map (UInt8.ofNat (carry * 64 + d) :: ·)

def decode? (s : String) : Option ByteArray :=
  (decodeChars 0 0 0 s.toList).map fun bs => ⟨bs.toArray⟩

end RouteCompiler.Text.Base64
