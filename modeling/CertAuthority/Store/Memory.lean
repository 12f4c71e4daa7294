import CertAuthority.Store.Call

/-!
# Tables in memory

Entries stand in the order in which their keys were created.
-/

namespace CertAuthority

structure MemoryTable (α : Type) where
  entries : Entries α
  deriving Repr, Inhabited

namespace MemoryTable

variable {α : Type}

def empty : MemoryTable α := ⟨[]⟩

def create (t : MemoryTable α) (key : String) (value : α) : Except CaError Nat × MemoryTable α :=
  match t.entries.find? key with
  | some _ => (.error (.conflict key), t)
  | none => (.ok Versioned.firstRevision, ⟨t.entries ++ [(key, Versioned.fresh value)]⟩)

def update (t : MemoryTable α) (key : String) (value : α) (revision : Nat) :
    Except CaError Nat × MemoryTable α :=
  match t.entries.find? key with
  | none => (.error (.conflict key), t)
  | some entry =>
    if entry.revision = revision then
      let entry := entry.overwrite value
      (.ok entry.revision, ⟨t.entries.replace key entry⟩)
    else (.error (.conflict key), t)

def delete (t : MemoryTable α) (key : String) (revision : Nat) :
    Except CaError Unit × MemoryTable α :=
  match t.entries.find? key with
  | none => (.error (.conflict key), t)
  | some entry =>
    if entry.revision = revision then (.ok (), ⟨t.entries.erase key⟩)
    else (.error (.conflict key), t)

/-- Answers a call. -/
def step (t : MemoryTable α) (call : TableCall α) : call.Reply × MemoryTable α :=
  match call with
  | .get key => (.ok (t.entries.find? key), t)
  | .create key value => t.create key value
  | .update key value revision => t.update key value revision
  | .delete key revision => t.delete key revision
  | .list => (.ok t.entries, t)

end MemoryTable

end CertAuthority
