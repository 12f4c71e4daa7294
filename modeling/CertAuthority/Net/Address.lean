import CertAuthority.Bytes.Basic

/-!
# IP addresses

IPv4 addresses are four decimal octets without leading zeros.  IPv6 addresses are eight
groups of up to four hexadecimal digits, where `::` stands for one or more zero groups and the
last two groups may be written as an IPv4 address.  Written form: the first longest run of at
least two zero groups becomes `::`, and an IPv4-mapped address ends in its IPv4 form.
-/

namespace CertAuthority

inductive IpAddress where
  | v4 (a b c d : UInt8)
  | v6 (a b c d e f g h : UInt16)
  deriving Repr, DecidableEq, Inhabited

namespace IpAddress

/-- Position in the order of addresses: IPv4 before IPv6, then by value. -/
def rank : IpAddress → Nat × Nat
  | .v4 a b c d => (0, [a, b, c, d].foldl (fun n x => n * 256 + x.toNat) 0)
  | .v6 a b c d e f g h => (1, [a, b, c, d, e, f, g, h].foldl (fun n x => n * 65536 + x.toNat) 0)

protected def lt (x y : IpAddress) : Prop :=
  x.rank.1 < y.rank.1 ∨ (x.rank.1 = y.rank.1 ∧ x.rank.2 < y.rank.2)

instance : LT IpAddress := ⟨IpAddress.lt⟩

instance (x y : IpAddress) : Decidable (x < y) :=
  inferInstanceAs (Decidable (_ ∨ _))

def decimal (n : Nat) : List Char :=
  Nat.toDigits 10 n

def hexadecimal (n : Nat) : List Char :=
  Nat.toDigits 16 n

/-- Parts with a separator between them. -/
def joined (separator : Char) : List (List Char) → List Char
  | [] => []
  | [p] => p
  | p :: rest => p ++ separator :: joined separator rest

def dotted (a b c d : UInt8) : List Char :=
  joined '.' ([a, b, c, d].map fun x => decimal x.toNat)

/-- The length of the run of zeros at the front. -/
def zeroRun (groups : List UInt16) : Nat :=
  (groups.takeWhile (· = 0)).length

/-- Start and length of the first longest run of zeros, given what was found before. -/
def longestRun (best : Nat × Nat) (start : Nat) : List UInt16 → Nat × Nat
  | [] => best
  | g :: rest =>
    let n := zeroRun (g :: rest)
    longestRun (if best.2 < n then (start, n) else best) (start + 1) rest

def groupsText (groups : List UInt16) : List Char :=
  joined ':' (groups.map fun g => hexadecimal g.toNat)

def renderChars : IpAddress → List Char
  | .v4 a b c d => dotted a b c d
  | .v6 a b c d e f g h =>
    if a = 0 ∧ b = 0 ∧ c = 0 ∧ d = 0 ∧ e = 0 ∧ f = 0xFFFF then
      "::ffff:".toList ++
        dotted (g >>> 8).toUInt8 g.toUInt8 (h >>> 8).toUInt8 h.toUInt8
    else
      let groups := [a, b, c, d, e, f, g, h]
      let (start, n) := longestRun (0, 0) 0 groups
      if 1 < n then
        groupsText (groups.take start) ++ ':' :: ':' :: groupsText (groups.drop (start + n))
      else groupsText groups

def render (x : IpAddress) : String :=
  String.ofList x.renderChars

instance : ToString IpAddress := ⟨render⟩

/-- The value of a digit in a base of at most sixteen. -/
def digitValue (base : Nat) (c : Char) : Option Nat :=
  let v :=
    if '0' ≤ c ∧ c ≤ '9' then some (c.toNat - 48)
    else if 'a' ≤ c ∧ c ≤ 'f' then some (c.toNat - 87)
    else if 'A' ≤ c ∧ c ≤ 'F' then some (c.toNat - 55)
    else none
  v.filter (· < base)

/-- A run of one to `width` digits that no further digit follows. -/
def number (base width : Nat) (s : List Char) : Option (Nat × List Char) :=
  let ds := s.takeWhile fun c => (digitValue base c).isSome
  if ds.isEmpty ∨ width < ds.length then none
  else
    some (ds.foldl (fun n c => n * base + (digitValue base c).getD 0) 0, s.drop ds.length)

/-- One octet in decimal; a leading zero is only the number zero itself. -/
def octet (s : List Char) : Option (UInt8 × List Char) :=
  match number 10 3 s with
  | some (n, rest) =>
    if 255 < n ∨ (s.head? = some '0' ∧ rest.length + 1 < s.length) then none
    else some (UInt8.ofNat n, rest)
  | none => none

def afterChar (c : Char) (s : List Char) : Option (List Char) :=
  match s with
  | d :: rest => if d = c then some rest else none
  | [] => none

/-- Four octets at the front of a text. -/
def octets (s : List Char) : Option ((UInt8 × UInt8 × UInt8 × UInt8) × List Char) := do
  let (a, s) ← octet s
  let s ← afterChar '.' s
  let (b, s) ← octet s
  let s ← afterChar '.' s
  let (c, s) ← octet s
  let s ← afterChar '.' s
  let (d, s) ← octet s
  return ((a, b, c, d), s)

def groupOfOctets (hi lo : UInt8) : UInt16 :=
  UInt16.ofNat (hi.toNat * 256 + lo.toNat)

/-- Reads up to `room` groups, each after the first with a colon before it.  Returns them, the
rest of the text, and whether the last two were an IPv4 address, which ends the reading. -/
def readGroups (first : Bool) : Nat → List Char → List UInt16 × List Char × Bool
  | 0, s => ([], s, false)
  | room + 1, s =>
    match (if first then some s else afterChar ':' s) with
    | none => ([], s, false)
    | some t =>
      match (if 0 < room then octets t else none) with
      | some ((a, b, c, d), rest) => ([groupOfOctets a b, groupOfOctets c d], rest, true)
      | none =>
        match number 16 4 t with
        | none => ([], s, false)
        | some (n, rest) =>
          let (groups, rest, mapped) := readGroups false room rest
          (UInt16.ofNat n :: groups, rest, mapped)

def ofGroups : List UInt16 → Option IpAddress
  | [a, b, c, d, e, f, g, h] => some (.v6 a b c d e f g h)
  | _ => none

def parseV6 (s : List Char) : Option IpAddress :=
  let (head, rest, mapped) := readGroups true 8 s
  if head.length = 8 then
    if rest.isEmpty then ofGroups head else none
  else if mapped then none
  else
    match rest with
    | ':' :: ':' :: rest =>
      let (tail, rest, _) := readGroups true (7 - head.length) rest
      if rest.isEmpty then
        ofGroups (head ++ List.replicate (8 - head.length - tail.length) 0 ++ tail)
      else none
    | _ => none

def parseChars (s : List Char) : Option IpAddress :=
  match octets s with
  | some ((a, b, c, d), []) => some (.v4 a b c d)
  | _ => parseV6 s

def parse (s : String) : Option IpAddress :=
  parseChars s.toList

end IpAddress

end CertAuthority
