import CertAuthority.Bytes.Basic

/-!
# Hexadecimal text

Two digits a byte, most significant first.  Writing comes in both letter cases; reading
accepts either.
-/

namespace CertAuthority.Hex

/-- The upper-case digit of a value below sixteen. -/
def digitUpper (n : Nat) : Char :=
  if n < 10 then Char.ofNat (48 + n) else Char.ofNat (55 + n)

/-- The lower-case digit of a value below sixteen. -/
def digitLower (n : Nat) : Char :=
  if n < 10 then Char.ofNat (48 + n) else Char.ofNat (87 + n)

def encodeWith (digit : Nat → Char) (bytes : Bytes) : List Char :=
  bytes.flatMap fun b => [digit (b.toNat / 16), digit (b.toNat % 16)]

def encodeUpper (bytes : Bytes) : String :=
  String.ofList (encodeWith digitUpper bytes)

def encodeLower (bytes : Bytes) : String :=
  String.ofList (encodeWith digitLower bytes)

/-- The value of a hexadecimal digit of either case. -/
def digitValue (c : Char) : Option Nat :=
  if '0' ≤ c ∧ c ≤ '9' then some (c.toNat - 48)
  else if 'a' ≤ c ∧ c ≤ 'f' then some (c.toNat - 87)
  else if 'A' ≤ c ∧ c ≤ 'F' then some (c.toNat - 55)
  else none

def decode : List Char → Option Bytes
  | [] => some []
  | [_] => none
  | hi :: lo :: rest => do
    let h ← digitValue hi
    let l ← digitValue lo
    let tail ← decode rest
    return UInt8.ofNat (h * 16 + l) :: tail

/-- The digits of `n` in base sixteen without leading zeros, in lower case. -/
def ofNat (n : Nat) : String :=
  String.ofList (Nat.toDigits 16 n)

end CertAuthority.Hex
