import CertAuthority.Decimal.Shortest
import CertAuthority.Json.Basic

/-!
# JSON numbers

Reading: an integer that fits 64 bits stays an integer.  Any other number is a double, made
from the leading digits that fit 64 bits and a decimal exponent.  The product with the power
of ten is rounded once more, so the last bit may differ from the nearest double.  Minus zero
is a double.  A number past the largest double is refused.

Writing: doubles are written with the fewest digits that read back.  They are positional with
at least one decimal for exponents from -5 to 15, and otherwise carry a signed exponent.
-/

namespace CertAuthority.JsonNumber

/-- The parts of a number literal: `sign int . frac e sign exp`, absent parts empty. -/
structure Literal where
  negative : Bool
  whole : List Char
  fraction : Option (List Char)
  exponent : Option (Bool × List Char)
  deriving Repr, DecidableEq, Inhabited

def digitValue (c : Char) : Nat :=
  c.toNat - 48

def maxUnsigned : Nat := Nat.pow 2 64 - 1

/-- Takes digits into `acc` while it fits 64 bits; also counts them and keeps the rest. -/
def takeFitting (acc count : Nat) : List Char → Nat × Nat × List Char
  | [] => (acc, count, [])
  | c :: rest =>
    let next := acc * 10 + digitValue c
    if next ≤ maxUnsigned then takeFitting next (count + 1) rest
    else (acc, count, c :: rest)

/-- The digits as a number, cut off at the largest 32-bit signed integer. -/
def exponentValue : List Char → Option Nat
  | digits =>
    let n := digits.foldl (fun n c => n * 10 + digitValue c) 0
    if n ≤ Nat.pow 2 31 - 1 then some n else none

/-- `10 ^ e` for an exponent of at most 308. -/
def powerOfTen (e : Nat) : Float :=
  Float.ofScientific 1 false e

/-- Multiplies by `10 ^ e` with one rounding, in steps of `10 ^ 308` when `e` is very small;
nothing when the result is not finite. -/
def scale : Nat → Float → Int → Option Float
  | 0, f, _ => some f
  | fuel + 1, f, e =>
    if e.natAbs ≤ 308 then
      if 0 ≤ e then
        let r := f * powerOfTen e.natAbs
        if r.isInf then none else some r
      else some (f / powerOfTen e.natAbs)
    else if f == 0.0 then some f
    else if 0 ≤ e then none
    else scale fuel (f / powerOfTen 308) (e + 308)

def ofParts (negative : Bool) (significand : Nat) (e : Int) : Option JsonNumber :=
  (scale 8 (Float.ofNat significand) e).map fun f =>
    .float (if negative then (-f).toBits else f.toBits)

def ofLiteral (l : Literal) : Option JsonNumber :=
  let (whole, _, dropped) := takeFitting 0 0 l.whole
  if dropped.isEmpty ∧ l.fraction.isNone ∧ l.exponent.isNone then
    if !l.negative then some (.int whole)
    else if whole = 0 ∨ Nat.pow 2 63 < whole then
      some (.float (-(Float.ofNat whole)).toBits)
    else some (.int (-(whole : Int)))
  else
    let (significand, places, _) := takeFitting whole 0 (l.fraction.getD [])
    let base : Int := (dropped.length : Int) - places
    match l.exponent with
    | none => ofParts l.negative significand base
    | some (negativeExponent, digits) =>
      match exponentValue digits with
      | some e => ofParts l.negative significand (if negativeExponent then base - e else base + e)
      | none =>
        if significand ≠ 0 ∧ !negativeExponent then none
        else some (.float (if l.negative then (-0.0 : Float).toBits else (0.0 : Float).toBits))

def digits (n : Nat) : List Char :=
  Nat.toDigits 10 n

/-- The text of `digits * 10 ^ exponent` in the positional or the exponent form. -/
def renderScientific (s : Decimal.Scientific) : List Char :=
  let ds := digits s.digits
  let lead : Int := s.exponent + ds.length - 1
  if -5 ≤ lead ∧ lead ≤ 15 then
    if 0 ≤ s.exponent then
      ds ++ List.replicate s.exponent.toNat '0' ++ ['.', '0']
    else if 0 ≤ lead then
      let point := (lead + 1).toNat
      ds.take point ++ '.' :: ds.drop point
    else
      ['0', '.'] ++ List.replicate (-lead - 1).toNat '0' ++ ds
  else
    let mantissa := match ds with
      | [d] => [d]
      | d :: rest => d :: '.' :: rest
      | [] => []
    mantissa ++ ['e', if lead < 0 then '-' else '+'] ++ digits lead.natAbs

def renderFloat (bits : UInt64) : List Char :=
  let negative := Nat.pow 2 63 ≤ bits.toNat
  let magnitude := bits.toNat % Nat.pow 2 63
  let body :=
    if magnitude = 0 then ['0', '.', '0']
    else renderScientific (Decimal.shortest (Decimal.Binary.ofBits (UInt64.ofNat magnitude)))
  if negative then '-' :: body else body

def render : JsonNumber → List Char
  | .int n => if n < 0 then '-' :: digits n.natAbs else digits n.natAbs
  | .float bits => renderFloat bits

end CertAuthority.JsonNumber
