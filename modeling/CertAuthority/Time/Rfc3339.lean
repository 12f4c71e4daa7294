import CertAuthority.Text.Character
import CertAuthority.Time.Instant

/-!
# Timestamps as text

Writing follows RFC 3339 in UTC: `Z` at the end, and a fraction of three, six or nine digits,
or none when it is zero.  Years outside 0 to 9999 carry a sign.

Reading is lenient.  Numbers may have fewer digits, blanks may stand before a number or a
separator, the letter between date and time may be lower case or a space, the zone is `Z`,
`UTC` or an offset with or without a colon, and digits after the ninth of a fraction are
dropped.  Any offset below a day is accepted and converted.
-/

namespace CertAuthority.Time

/-- The decimal digits of `n`, with zeros in front up to `width`. -/
def padded (width n : Nat) : List Char :=
  let ds := Nat.toDigits 10 n
  List.replicate (width - ds.length) '0' ++ ds

/-- Four digits, or a sign and at least four digits outside the years 0 to 9999. -/
def yearDigits (year : Int) : List Char :=
  if year < 0 then '-' :: padded 4 year.natAbs
  else if 9999 < year then '+' :: padded 4 year.natAbs
  else padded 4 year.natAbs

/-- The date as `YYYY`, `MM` and `DD` with a separator. -/
def dateText (separator : List Char) (d : Date) : List Char :=
  yearDigits d.year ++ separator ++ padded 2 d.month ++ separator ++ padded 2 d.day

/-- The time of day as `HH:MM:SS`. -/
def clockText (t : Instant) : List Char :=
  padded 2 t.hour ++ ':' :: padded 2 t.minute ++ ':' :: padded 2 t.second

def fractionText (nanos : Nat) : List Char :=
  if nanos = 0 then []
  else if nanos % 1000000 = 0 then '.' :: padded 3 (nanos / 1000000)
  else if nanos % 1000 = 0 then '.' :: padded 6 (nanos / 1000)
  else '.' :: padded 9 nanos

def renderChars (t : Instant) : List Char :=
  dateText ['-'] t.date ++ 'T' :: clockText t ++ fractionText t.fraction ++ ['Z']

def render (t : Instant) : String :=
  String.ofList (renderChars t)

/-- `YYYYMMDD`. -/
def compactDate (t : Instant) : String :=
  String.ofList (dateText [] t.date)

/-- `YYYY-MM-DD HH:MM:SS`. -/
def plainText (t : Instant) : String :=
  String.ofList (dateText ['-'] t.date ++ ' ' :: clockText t)

def isDigit (c : Char) : Bool :=
  '0' ≤ c && c ≤ '9'

def digitsValue (ds : List Char) : Nat :=
  ds.foldl (fun n c => n * 10 + (c.toNat - 48)) 0

/-- At least one digit, and at most `width` of them. -/
def number (width : Nat) (s : List Char) : Option (Nat × List Char) :=
  let ds := (s.take width).takeWhile isDigit
  if ds.isEmpty then none else some (digitsValue ds, s.drop ds.length)

/-- Digits without a limit on their number, but with a value of at most 63 bits. -/
def longNumber (s : List Char) : Option (Nat × List Char) :=
  match number s.length s with
  | some (n, rest) => if n < Nat.pow 2 63 then some (n, rest) else none
  | none => none

/-- A year: four digits, or any number of them after a sign. -/
def year (s : List Char) : Option (Int × List Char) :=
  match Text.trimStart s with
  | '-' :: rest => (longNumber rest).map fun (n, rest) => (-(n : Int), rest)
  | '+' :: rest => (longNumber rest).map fun (n, rest) => ((n : Int), rest)
  | s => (number 4 s).map fun (n, rest) => ((n : Int), rest)

/-- A number of one or two digits between `lo` and `hi`, after blanks. -/
def field (lo hi : Nat) (s : List Char) : Option (Nat × List Char) :=
  match number 2 (Text.trimStart s) with
  | some (n, rest) => if lo ≤ n ∧ n ≤ hi then some (n, rest) else none
  | none => none

/-- A separator, after blanks. -/
def separator (c : Char) (s : List Char) : Option (List Char) :=
  match Text.trimStart s with
  | d :: rest => if d = c then some rest else none
  | [] => none

/-- The fraction in nanoseconds, if a point follows. -/
def fraction (s : List Char) : Option (Nat × List Char) :=
  match s with
  | '.' :: rest =>
    let ds := rest.takeWhile isDigit
    if ds.isEmpty then none
    else
      let kept := ds.take 9
      some (digitsValue kept * Nat.pow 10 (9 - kept.length), rest.drop ds.length)
  | _ => some (0, s)

def twoDigits (s : List Char) : Option (Nat × List Char) :=
  match s with
  | a :: b :: rest =>
    if isDigit a ∧ isDigit b then some (digitsValue [a, b], rest) else none
  | _ => none

/-- The zone's offset in seconds east of UTC. -/
def zone (s : List Char) : Option (Int × List Char) :=
  match s with
  | [] => none
  | c :: rest =>
    if c = 'Z' ∨ c = 'z' then some (0, rest)
    else if (s.take 3).map Char.toUpper = ['U', 'T', 'C'] then some (0, s.drop 3)
    else do
      let sign : Int ←
        if c = '+' then some 1 else if c = '-' ∨ c = '\u2212' then some (-1) else none
      let (hours, rest) ← twoDigits rest
      let rest := rest.dropWhile fun c => c = ':' || Text.isBlank c
      let (minutes, rest) ← twoDigits rest
      if 59 < minutes then none
      let offset : Int := hours * 3600 + minutes * 60
      if 86400 ≤ offset then none
      return (sign * offset, rest)

/-- The instant of a date and a time of day at an offset, if the calendar has it. -/
def assemble (d : Date) (hour minute second nanos : Nat) (offset : Int) : Option Instant :=
  let extra := if second = 60 then Instant.nanosPerSecond else 0
  let local' : Int := d.toDays * Instant.secondsPerDay + (hour * 3600 + minute * 60 + min second 59 : Nat)
  let t : Instant := ⟨local' - offset, nanos + extra⟩
  if d.isValid ∧ Instant.minYear ≤ d.year ∧ d.year ≤ Instant.maxYear ∧ t.InRange then some t
  else none

def parseChars (s : List Char) : Option Instant := do
  let (y, s) ← year s
  let s ← separator '-' s
  let (month, s) ← field 1 12 s
  let s ← separator '-' s
  let (day, s) ← field 1 31 s
  let s ← match s with
    | 'T' :: rest | 't' :: rest | ' ' :: rest => some rest
    | _ => none
  let (hour, s) ← field 0 23 s
  let s ← separator ':' s
  let (minute, s) ← field 0 59 s
  let s ← separator ':' s
  let (second, s) ← field 0 60 s
  let (nanos, s) ← fraction s
  let (offset, s) ← zone (Text.trimStart s)
  if (Text.trimStart s).isEmpty then assemble ⟨y, month, day⟩ hour minute second nanos offset
  else none

def parse (s : String) : Option Instant :=
  parseChars s.toList

end CertAuthority.Time
