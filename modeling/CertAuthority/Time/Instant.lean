import CertAuthority.Time.Calendar

/-!
# Points in time

An instant is a number of whole seconds since 1970-01-01T00:00:00Z and a fraction in
nanoseconds.  A leap second is the second before it with a fraction of one second or more.
Instants reach from the year -262143 to the year 262142; an addition that leaves this range
has no result.
-/

namespace CertAuthority

structure Instant where
  seconds : Int
  nanos : Nat
  deriving Repr, DecidableEq, Inhabited

namespace Instant

def secondsPerDay : Int := 86400
def secondsPerHour : Int := 3600
def nanosPerSecond : Nat := 1000000000

def minYear : Int := -262143
def maxYear : Int := 262142

/-- The first second of the range. -/
def minSeconds : Int :=
  (Date.mk minYear 1 1).toDays * secondsPerDay

/-- The last second of the range. -/
def maxSeconds : Int :=
  ((Date.mk maxYear 12 31).toDays + 1) * secondsPerDay - 1

def InRange (t : Instant) : Prop :=
  minSeconds ≤ t.seconds ∧ t.seconds ≤ maxSeconds

instance (t : Instant) : Decidable t.InRange :=
  inferInstanceAs (Decidable (_ ∧ _))

/-- The start of the whole second with this number. -/
def ofSeconds (seconds : Int) : Instant :=
  ⟨seconds, 0⟩

protected def lt (a b : Instant) : Prop :=
  a.seconds < b.seconds ∨ (a.seconds = b.seconds ∧ a.nanos < b.nanos)

instance : LT Instant := ⟨Instant.lt⟩

instance (a b : Instant) : Decidable (a < b) :=
  inferInstanceAs (Decidable (_ ∨ _))

protected def le (a b : Instant) : Prop :=
  a.seconds < b.seconds ∨ (a.seconds = b.seconds ∧ a.nanos ≤ b.nanos)

instance : LE Instant := ⟨Instant.le⟩

instance (a b : Instant) : Decidable (a ≤ b) :=
  inferInstanceAs (Decidable (_ ∨ _))

/-- The instant a whole number of seconds later, leap seconds not counted.  A leap second that
is left behind falls back to the second before it, going forward, or to the one after it,
going back. -/
def addSeconds? (t : Instant) (delta : Int) : Option Instant :=
  let moved : Instant :=
    if t.nanos < nanosPerSecond ∨ delta = 0 then ⟨t.seconds + delta, t.nanos⟩
    else if 0 < delta then ⟨t.seconds + delta, t.nanos - nanosPerSecond⟩
    else ⟨t.seconds + 1 + delta, t.nanos - nanosPerSecond⟩
  if moved.InRange then some moved else none

def addDays? (t : Instant) (days : Int) : Option Instant :=
  t.addSeconds? (days * secondsPerDay)

/-- The date in UTC. -/
def date (t : Instant) : Date :=
  Date.ofDays (t.seconds / secondsPerDay)

/-- The second of the day, from 0 to 86399. -/
def secondOfDay (t : Instant) : Nat :=
  (t.seconds % secondsPerDay).toNat

def hour (t : Instant) : Nat := t.secondOfDay / 3600
def minute (t : Instant) : Nat := t.secondOfDay / 60 % 60

/-- The second of the minute; sixty in a leap second. -/
def second (t : Instant) : Nat :=
  t.secondOfDay % 60 + if nanosPerSecond ≤ t.nanos then 1 else 0

/-- The part of the second in nanoseconds. -/
def fraction (t : Instant) : Nat :=
  if nanosPerSecond ≤ t.nanos then t.nanos - nanosPerSecond else t.nanos

end Instant

end CertAuthority
