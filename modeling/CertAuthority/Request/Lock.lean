import CertAuthority.Identifier

/-!
# Locks of requests

Whoever decides a request holds the request's lock.  A ledger keeps locks in a table, and only as
long as they are used: a caller refers to the lock that the table has for the request, or to a new
one that it puts there, waits until nobody holds it, and at last removes it from the table if
nobody else refers to it.  Other callers may act between any two of these steps.
-/

namespace CertAuthority

structure SharedLock where
  /-- How many refer to the lock, the table among them. -/
  references : Nat
  isHeld : Bool
  deriving Repr, DecidableEq, Inhabited

/-- A new lock, to which the table and its first caller refer. -/
def SharedLock.fresh : SharedLock := ⟨2, false⟩

/-- How far a caller has come.  Locks go by numbers in the order in which they were made. -/
inductive LockStage where
  | arrived
  /-- It refers to a lock that it does not hold yet. -/
  | waiting (lock : Nat)
  | inside (lock : Nat)
  /-- It has released the lock and still refers to it. -/
  | leaving (lock : Nat)
  /-- It refers to no lock and has yet to tidy the table. -/
  | tidying
  | gone
  deriving Repr, DecidableEq, Inhabited

/-- The lock that a caller refers to. -/
def LockStage.lock? : LockStage → Option Nat
  | .waiting n | .inside n | .leaving n => some n
  | .arrived | .tidying | .gone => none

def LockStage.isInside : LockStage → Bool
  | .inside _ => true
  | _ => false

structure LockCaller where
  requestId : RequestId
  stage : LockStage
  deriving Repr, DecidableEq, Inhabited

structure LockTable where
  /-- All locks that were ever made. -/
  locks : List SharedLock
  /-- The requests that have a lock, with its number. -/
  entries : List (RequestId × Nat)
  /-- All callers that ever came. -/
  callers : List LockCaller
  deriving Repr, DecidableEq, Inhabited

namespace LockTable

def empty : LockTable := ⟨[], [], []⟩

def lock? (t : LockTable) (id : RequestId) : Option Nat :=
  t.entries.lookup id

def setStage (t : LockTable) (caller : Nat) (stage : LockStage) : LockTable :=
  { t with callers := t.callers.modify caller fun c => { c with stage } }

def changeLock (t : LockTable) (n : Nat) (change : SharedLock → SharedLock) : LockTable :=
  { t with locks := t.locks.modify n change }

/-- A caller comes. -/
def arrive (t : LockTable) (id : RequestId) : LockTable :=
  { t with callers := t.callers ++ [⟨id, .arrived⟩] }

/-- Refers to the lock of a request, which is made if there is none. -/
def refer (t : LockTable) (caller : Nat) (id : RequestId) : LockTable :=
  match t.lock? id with
  | some n =>
    (t.changeLock n fun l => { l with references := l.references + 1 }).setStage caller (.waiting n)
  | none =>
    let n := t.locks.length
    let made : LockTable :=
      { t with locks := t.locks ++ [SharedLock.fresh], entries := (id, n) :: t.entries }
    made.setStage caller (.waiting n)

/-- Takes a lock, which must be free. -/
def acquire? (t : LockTable) (caller n : Nat) : Option LockTable :=
  match t.locks[n]? with
  | some l =>
    if l.isHeld then none
    else some ((t.changeLock n fun l => { l with isHeld := true }).setStage caller (.inside n))
  | none => none

def release (t : LockTable) (caller n : Nat) : LockTable :=
  (t.changeLock n fun l => { l with isHeld := false }).setStage caller (.leaving n)

def dropReference (t : LockTable) (n : Nat) : LockTable :=
  t.changeLock n fun l => { l with references := l.references - 1 }

/-- Whether the table alone refers to a lock. -/
def isUnused (t : LockTable) (n : Nat) : Bool :=
  match t.locks[n]? with
  | some l => l.references = 1
  | none => false

/-- Removes the lock of a request if nobody uses it. -/
def tidy (t : LockTable) (id : RequestId) : LockTable :=
  match t.lock? id with
  | some n =>
    if t.isUnused n then
      let t := t.dropReference n
      { t with entries := t.entries.filter (·.1 ≠ id) }
    else t
  | none => t

/-- The next step of a caller; nothing if it has to wait or has none left. -/
def advance? (t : LockTable) (caller : Nat) : Option LockTable :=
  match t.callers[caller]? with
  | none => none
  | some c =>
    match c.stage with
    | .arrived => some (t.refer caller c.requestId)
    | .waiting n => t.acquire? caller n
    | .inside n => some (t.release caller n)
    | .leaving n => some ((t.dropReference n).setStage caller .tidying)
    | .tidying => some ((t.tidy c.requestId).setStage caller .gone)
    | .gone => none

/-- What can happen to a table. -/
inductive Event where
  | arrival (id : RequestId)
  | advance (caller : Nat)
  deriving Repr, DecidableEq

def step? (t : LockTable) : Event → Option LockTable
  | .arrival id => some (t.arrive id)
  | .advance caller => t.advance? caller

/-- The table after some events; nothing if one of them cannot happen. -/
def run? (t : LockTable) : List Event → Option LockTable
  | [] => some t
  | e :: events =>
    match t.step? e with
    | some t => t.run? events
    | none => none

/-- How many callers hold the lock of a request. -/
def countInside (t : LockTable) (id : RequestId) : Nat :=
  t.callers.countP fun c => c.requestId = id ∧ c.stage.isInside

/-- Whether some caller for a request has steps left. -/
def isInUse (t : LockTable) (id : RequestId) : Bool :=
  t.callers.any fun c => c.requestId = id ∧ c.stage ≠ .gone

end LockTable

end CertAuthority
