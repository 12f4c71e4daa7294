import CertAuthority.Bytes.Basic

/-!
# Base64

The standard alphabet with padding.  Reading accepts canonical text only: the length is a
multiple of four, padding is complete, and the bits that padding leaves over are zero.  So
each byte string has exactly one accepted form, the one that `encode` writes.
-/

namespace CertAuthority.Base64

/-- The character of a six-bit value. -/
def digit (n : Nat) : Char :=
  if n < 26 then Char.ofNat (65 + n)
  else if n < 52 then Char.ofNat (71 + n)
  else if n < 62 then Char.ofNat (n - 4)
  else if n = 62 then '+'
  else '/'

/-- The six-bit value of a character of the alphabet. -/
def digitValue (c : Char) : Option Nat :=
  if 'A' ≤ c ∧ c ≤ 'Z' then some (c.toNat - 65)
  else if 'a' ≤ c ∧ c ≤ 'z' then some (c.toNat - 71)
  else if '0' ≤ c ∧ c ≤ '9' then some (c.toNat + 4)
  else if c = '+' then some 62
  else if c = '/' then some 63
  else none

def encode : Bytes → List Char
  | [] => []
  | [a] =>
    let n := a.toNat * 16
    [digit (n / 64), digit (n % 64), '=', '=']
  | [a, b] =>
    let n := (a.toNat * 256 + b.toNat) * 4
    [digit (n / 4096), digit (n / 64 % 64), digit (n % 64), '=']
  | a :: b :: c :: rest =>
    let n := (a.toNat * 256 + b.toNat) * 256 + c.toNat
    digit (n / 262144) :: digit (n / 4096 % 64) :: digit (n / 64 % 64) :: digit (n % 64) ::
      encode rest

/-- The one or two bytes of a last group that ends in padding. -/
def decodePadded (a b c d : Char) : Option Bytes := do
  let x ← digitValue a
  let y ← digitValue b
  if d ≠ '=' then none
  if c = '=' then
    if y % 16 ≠ 0 then none
    return [UInt8.ofNat (x * 4 + y / 16)]
  let z ← digitValue c
  if z % 4 ≠ 0 then none
  return [UInt8.ofNat (x * 4 + y / 16), UInt8.ofNat (y % 16 * 16 + z / 4)]

def decode : List Char → Option Bytes
  | [] => some []
  | [a, b, c, d] =>
    match digitValue a, digitValue b, digitValue c, digitValue d with
    | some x, some y, some z, some w =>
      some [UInt8.ofNat (x * 4 + y / 16), UInt8.ofNat (y % 16 * 16 + z / 4),
        UInt8.ofNat (z % 4 * 64 + w)]
    | _, _, _, _ => decodePadded a b c d
  | a :: b :: c :: d :: rest => do
    let x ← digitValue a
    let y ← digitValue b
    let z ← digitValue c
    let w ← digitValue d
    let tail ← decode rest
    return UInt8.ofNat (x * 4 + y / 16) :: UInt8.ofNat (y % 16 * 16 + z / 4) ::
      UInt8.ofNat (z % 4 * 64 + w) :: tail
  | _ => none

end CertAuthority.Base64
