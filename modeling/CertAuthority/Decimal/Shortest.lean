/-!
# Shortest decimal text of a double

A finite double is `m * 2 ^ q`.  The reals that round to it form an interval whose ends
belong to it when `m` is even.  The text is made from the first decimal grid, counted in
significant digits, that has a point inside the interval, and from the nearer of its two
points when there are two.
-/

namespace CertAuthority.Decimal

/-- A positive double as `mantissa * 2 ^ exponent`; `lowerHalf` says that the gap below it is
half the gap above it, which happens at a power of two. -/
structure Binary where
  mantissa : Nat
  exponent : Int
  lowerHalf : Bool
  deriving Repr, DecidableEq

namespace Binary

/-- The magnitude of the double with these bits, which are finite and not zero. -/
def ofBits (bits : UInt64) : Binary :=
  let e : Nat := (bits.toNat / Nat.pow 2 52) % 2048
  let f : Nat := bits.toNat % Nat.pow 2 52
  if e = 0 then ⟨f, -1074, false⟩
  else ⟨Nat.pow 2 52 + f, (e : Int) - 1075, f = 0 ∧ 1 < e⟩

end Binary

/-- Decimal digits `digits * 10 ^ exponent`. -/
structure Scientific where
  digits : Nat
  exponent : Int
  deriving Repr, DecidableEq

/-- A common scale: the value, its lower and upper interval ends and one decimal unit, all
multiplied by the same positive number. -/
structure Scaled where
  value : Nat
  lower : Nat
  upper : Nat
  unit : Nat

/-- The interval of `b` and the unit `10 ^ e`, scaled so that all four are natural numbers. -/
def Scaled.of (b : Binary) (e : Int) : Scaled :=
  let twoUp := Nat.pow 2 (b.exponent.toNat)
  let twoDown := Nat.pow 2 ((-b.exponent).toNat)
  let tenUp := Nat.pow 10 (e.toNat)
  let tenDown := Nat.pow 10 ((-e).toNat)
  let half := twoUp * tenDown
  { value := 4 * b.mantissa * half
    lower := (4 * b.mantissa - if b.lowerHalf then 1 else 2) * half
    upper := (4 * b.mantissa + 2) * half
    unit := 4 * tenUp * twoDown }

/-- Whether the grid point `n * unit` rounds to the double. -/
def Scaled.contains (s : Scaled) (closed : Bool) (n : Nat) : Bool :=
  if closed then s.lower ≤ n * s.unit ∧ n * s.unit ≤ s.upper
  else s.lower < n * s.unit ∧ n * s.unit < s.upper

/-- The grid point of unit `10 ^ e` that stands for `b`, if one lies in its interval. -/
def gridPoint? (b : Binary) (e : Int) : Option Nat :=
  let s := Scaled.of b e
  let closed := b.mantissa % 2 = 0
  let lo := s.value / s.unit
  let hi := lo + 1
  let loIn := lo ≠ 0 ∧ s.contains closed lo = true
  let hiIn := s.contains closed hi = true
  if loIn ∧ hiIn then
    let below := s.value - lo * s.unit
    let above := hi * s.unit - s.value
    if below < above then some lo
    else if above < below then some hi
    else if lo % 2 = 0 then some lo else some hi
  else if loIn then some lo
  else if hiIn then some hi
  else none

/-- The position of the leading decimal digit of `b`: the `p` with `10 ^ p ≤ b < 10 ^ (p+1)`. -/
def leadingExponent (b : Binary) : Int :=
  let num := b.mantissa * Nat.pow 2 (b.exponent.toNat)
  let den := Nat.pow 2 ((-b.exponent).toNat)
  if den ≤ num then ((Nat.toDigits 10 (num / den)).length : Int) - 1
  else
    let d := (Nat.toDigits 10 (den / num)).length
    if Nat.pow 10 (d - 1) * num = den then -((d : Int) - 1) else -(d : Int)

def searchGrid (b : Binary) (lead : Int) : Nat → Nat → Scientific
  | 0, _ => ⟨b.mantissa, b.exponent⟩
  | fuel + 1, places =>
    let e := lead - places
    match gridPoint? b e with
    | some n => ⟨n, e⟩
    | none => searchGrid b lead fuel (places + 1)

/-- Removes the trailing zeros of the digits. -/
def Scientific.normalize (s : Scientific) : Nat → Scientific
  | 0 => s
  | fuel + 1 =>
    if s.digits ≠ 0 ∧ s.digits % 10 = 0 then
      Scientific.normalize ⟨s.digits / 10, s.exponent + 1⟩ fuel
    else s

/-- The shortest decimal that reads back as `b`; seventeen digits always suffice. -/
def shortest (b : Binary) : Scientific :=
  (searchGrid b (leadingExponent b) 18 0).normalize 20

end CertAuthority.Decimal
