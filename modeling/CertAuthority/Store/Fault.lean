import CertAuthority.Store.Table

/-!
# Tables that fail

A fault waits for calls of one kind to one table.  It lets some pass, then acts on some: it may
put another entry under the key of the call, remove the entry that is there, and answer with an
error in the place of the table.  So a writer that comes in between can be shown, or a table that
cannot be reached.
-/

namespace CertAuthority

/-- The kinds of calls. -/
inductive CallKind where
  | get
  | create
  | update
  | delete
  | list
  deriving Repr, DecidableEq

namespace CallKind

def ofText? : String → Option CallKind
  | "get" => some .get
  | "create" => some .create
  | "update" => some .update
  | "delete" => some .delete
  | "list" => some .list
  | _ => none

def ofCall {α : Type} : TableCall α → CallKind
  | .get _ => .get
  | .create _ _ => .create
  | .update _ _ _ => .update
  | .delete _ _ => .delete
  | .list => .list

end CallKind

/-- The error of a fault. -/
inductive FaultError where
  /-- A conflict over the key of the call. -/
  | conflict
  | storage
  | internal
  deriving Repr, DecidableEq

/-- The words of an error that comes from a fault. -/
def FaultError.reason : String := "injected"

def FaultError.toError (key : String) : FaultError → CaError
  | .conflict => .conflict key
  | .storage => .storage reason
  | .internal => .internal reason

structure Fault where
  table : TableName
  kind : CallKind
  /-- How many calls pass before it acts. -/
  skip : Nat
  /-- On how many calls it acts. -/
  times : Nat
  error : Option FaultError
  put : Option table.Row
  removes : Bool

namespace Fault

/-- Whether a fault waits for a call. -/
def awaits (f : Fault) (name : TableName) (call : TableCall name.Row) : Bool :=
  f.table = name ∧ f.kind = CallKind.ofCall call ∧ f.times ≠ 0

/-- What the fault puts, if it is about a table. -/
def putInto? (f : Fault) (name : TableName) : Option name.Row :=
  if h : f.table = name then f.put.map (h ▸ ·) else none

/-- The writes of a fault, given how a table is asked. -/
def disturb {σ : Type} (f : Fault)
    (ask : (name : TableName) → (call : TableCall name.Row) → σ → call.Reply × σ)
    (name : TableName) (key : String) (s : σ) : σ :=
  let entry? (s : σ) : Option (Versioned name.Row) :=
    match (ask name (.get key) s).1 with
    | .ok entry => entry
    | .error _ => none
  let s := match f.putInto? name, entry? s with
    | some row, some entry => (ask name (.update key row entry.revision) s).2
    | some row, none => (ask name (.create key row) s).2
    | none, _ => s
  match f.removes, entry? s with
  | true, some entry => (ask name (.delete key entry.revision) s).2
  | _, _ => s

/-- Answers a call where faults wait, the first of those that wait for it being the one that
acts. -/
def answer {σ : Type} (faults : List Fault)
    (ask : (name : TableName) → (call : TableCall name.Row) → σ → call.Reply × σ)
    (name : TableName) (call : TableCall name.Row) (s : σ) : call.Reply × List Fault × σ :=
  let pass (faults : List Fault) (s : σ) : call.Reply × List Fault × σ :=
    let (reply, s) := ask name call s
    (reply, faults, s)
  match faults.findIdx? (·.awaits name call) with
  | none => pass faults s
  | some i =>
    match faults[i]? with
    | none => pass faults s
    | some f =>
      if f.skip ≠ 0 then pass (faults.set i { f with skip := f.skip - 1 }) s
      else
        let faults := faults.set i { f with times := f.times - 1 }
        let s := if f.kind = .list then s else f.disturb ask name call.key s
        match f.error with
        | none => pass faults s
        | some e => (call.failed (e.toError call.key), faults, s)

end Fault

end CertAuthority
