import CertAuthority.Procedure

/-!
# Where the service runs

The files and tables that it works on, with a clock and a source of random bytes.  Readings and
draws are counted, so that no two draws need be the same.
-/

namespace CertAuthority

structure Host where
  disk : Disk
  tables : Tables
  /-- How many effects there have been. -/
  count : Nat
  /-- What the clock shows after so many effects. -/
  clock : Nat → Instant
  /-- The random bytes that are drawn after so many effects, by their number. -/
  entropy : Nat → Nat → Bytes

namespace Host

def now (h : Host) : Instant :=
  h.clock h.count

def advance (h : Host) : Host :=
  { h with count := h.count + 1 }

/-- Tells a temporary file from all others. -/
def nonce (h : Host) : Nat :=
  h.now.seconds.toNat * Instant.nanosPerSecond + h.count

/-- Answers a call to a table. -/
def ask (h : Host) (name : TableName) (call : TableCall name.Row) : call.Reply × Host :=
  let (reply, tables, disk) := h.tables.step h.nonce h.disk name call
  (reply, { h.advance with tables, disk })

/-- Replies to an effect; nothing else runs here, so that every lock is free. -/
def reply (e : Effect) (h : Host) : e.Reply × Host :=
  match e with
  | .now => (h.now, h.advance)
  | .random n => (h.entropy h.count n, h.advance)
  | .table name call => h.ask name call
  | .lock _ => ((), h)
  | .unlock _ => ((), h)

/-- Writes a file in one step. -/
def writeFile (h : Host) (path : String) (content : String) (mode : Nat) :
    Except CaError Unit × Host :=
  let (written, disk) := AtomicWrite.write none h.nonce h.disk path (Bytes.ofString content) mode
  (written, { h.advance with disk })

end Host

end CertAuthority
