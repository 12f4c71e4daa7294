import CertAuthority.Asn1.Writer
import CertAuthority.Time.Instant

/-!
# Dates in certificates

A date is written with two digits of the year from 1950 to 2049 and with four digits in all
other years.  Reading accepts a time without seconds and a time in another zone; strict
reading accepts only whole seconds in UTC from 1970 on.
-/

namespace CertAuthority.X509

/-- A date in a certificate: a second, and whether the year has four digits. -/
structure CertificateDate where
  seconds : Int
  isGeneralized : Bool
  deriving Repr, DecidableEq, Inhabited

namespace CertificateDate

/-- The number that two decimal digits give. -/
def twoDigits : Bytes → Option (Nat × Bytes)
  | a :: b :: rest =>
    if 0x30 ≤ a ∧ a ≤ 0x39 ∧ 0x30 ≤ b ∧ b ≤ 0x39 then
      some ((a.toNat - 0x30) * 10 + (b.toNat - 0x30), rest)
    else none
  | _ => none

/-- Two digits, if the text goes on with any; zero otherwise. -/
def optionalDigits (input : Bytes) : Option (Nat × Bytes) :=
  match input with
  | b :: _ => if 0x30 ≤ b ∧ b ≤ 0x39 then twoDigits input else some (0, input)
  | [] => some (0, input)

/-- The zone at the end of a date, in seconds east of UTC. -/
def zone : Bytes → Option Int
  | [0x5A] => some 0
  | sign :: rest =>
    match twoDigits rest with
    | some (hours, rest) =>
      match twoDigits rest with
      | some (minutes, []) =>
        let offset : Int := (hours * 3600 + minutes * 60 : Nat)
        if sign = 0x2B then some offset else if sign = 0x2D then some (-offset) else none
      | _ => none
    | none => none
  | [] => none

/-- A year of two digits lies between 1950 and 2049. -/
def fullYear (n : Nat) : Nat :=
  if 50 ≤ n then 1900 + n else 2000 + n

def secondsOf (date : Date) (hour minute second : Nat) : Option Int :=
  if date.isValid ∧ hour ≤ 23 ∧ minute ≤ 59 ∧ second ≤ 59 then
    some (date.toDays * 86400 + (hour * 3600 + minute * 60 + second : Nat))
  else none

/-- The year at the front of a date. -/
def readYear (isGeneralized : Bool) (input : Bytes) : Option (Nat × Bytes) := do
  let (high, rest) ← twoDigits input
  if isGeneralized then
    let (low, rest) ← twoDigits rest
    return (high * 100 + low, rest)
  else return (fullYear high, rest)

def ofContent (isGeneralized : Bool) (content : Bytes) : Option CertificateDate := do
  let (year, rest) ← readYear isGeneralized content
  let (month, rest) ← twoDigits rest
  let (day, rest) ← twoDigits rest
  let (hour, rest) ← twoDigits rest
  let (minute, rest) ← if isGeneralized then optionalDigits rest else twoDigits rest
  let (second, rest) ← optionalDigits rest
  let offset ← zone rest
  let seconds ← secondsOf ⟨year, month, day⟩ hour minute second
  return ⟨seconds - offset, isGeneralized⟩

def ofElement (e : Asn1.Element) : Option CertificateDate :=
  if e.identifier = Asn1.utcTime then ofContent false e.content
  else if e.identifier = Asn1.generalizedTime then ofContent true e.content
  else none

def read (input : Bytes) : Option (CertificateDate × Bytes) := do
  let (e, rest) ← Asn1.Element.read input
  return (← ofElement e, rest)

/-- Whether the text of a date has seconds and is in UTC. -/
def isStrict (e : Asn1.Element) : Bool :=
  e.content.getLast? = some 0x5A ∧
    e.content.length = (if e.identifier = Asn1.generalizedTime then 15 else 13)

def readStrict (input : Bytes) : Option (CertificateDate × Bytes) := do
  let (e, rest) ← Asn1.Element.readStrict input
  let date ← ofElement e
  if isStrict e ∧ 0 ≤ date.seconds then return (date, rest) else none

/-- Two decimal digits of a number. -/
def digits (n : Nat) : Bytes :=
  [UInt8.ofNat (0x30 + n / 10 % 10), UInt8.ofNat (0x30 + n % 10)]

/-- Whether a year is written with four digits. -/
def needsFullYear (year : Int) : Bool :=
  year < 1950 ∨ 2050 ≤ year

/-- The date of a whole second. -/
def ofSeconds (seconds : Int) : CertificateDate :=
  ⟨seconds, needsFullYear (Instant.ofSeconds seconds).date.year⟩

/-- The date in its written form; years before 0 and after 9999 have none. -/
def encode? (d : CertificateDate) : Option Bytes :=
  let t := Instant.ofSeconds d.seconds
  let year := t.date.year
  let tail := digits t.date.month ++ digits t.date.day ++ digits t.hour ++ digits t.minute ++
    digits t.second ++ [0x5A]
  if year < 0 ∨ 9999 < year then none
  else
    let low := digits (year.toNat % 100)
    if d.isGeneralized then
      some (Asn1.encode Asn1.generalizedTime (digits (year.toNat / 100) ++ low ++ tail))
    else some (Asn1.encode Asn1.utcTime (low ++ tail))

end CertificateDate

/-- The first and the last second at which a certificate is valid. -/
structure Validity where
  notBefore : CertificateDate
  notAfter : CertificateDate
  deriving Repr, DecidableEq, Inhabited

namespace Validity

def read (input : Bytes) : Option (Validity × Bytes) := do
  let (content, rest) ← Asn1.Element.expect Asn1.sequence input
  let (notBefore, content) ← CertificateDate.read content
  let (notAfter, _) ← CertificateDate.read content
  return (⟨notBefore, notAfter⟩, rest)

def encode? (v : Validity) : Option Bytes := do
  let first ← v.notBefore.encode?
  let last ← v.notAfter.encode?
  return Asn1.encodeSequence [first, last]

end Validity

end CertAuthority.X509
