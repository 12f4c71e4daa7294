import CertAuthority.Disk.AtomicWrite
import CertAuthority.Store.Snapshot

/-!
# Tables in files

Each table is one file.  A call that writes takes a lock on a file beside the table, reads the
table, changes it, and writes it again in one step.  A call that is refused writes nothing, but
the lock file is there from then on.
-/

namespace CertAuthority

/-- A table in a file. -/
structure FileTable where
  path : String
  deriving Repr, DecidableEq, Inhabited

namespace FileTable

open Json (Codec)

variable {α : Type}

def create (key : String) (value : α) (entries : Entries α) : Except CaError (Nat × Entries α) :=
  match entries.find? key with
  | some _ => .error (.conflict key)
  | none => .ok (Versioned.firstRevision, Snapshot.insert entries key value)

def update (key : String) (value : α) (revision : Nat) (entries : Entries α) :
    Except CaError (Nat × Entries α) :=
  match entries.find? key with
  | none => .error (.conflict key)
  | some entry =>
    if entry.revision = revision then
      let entry := entry.overwrite value
      .ok (entry.revision, entries.replace key entry)
    else .error (.conflict key)

def delete (key : String) (revision : Nat) (entries : Entries α) :
    Except CaError (Unit × Entries α) :=
  match entries.find? key with
  | none => .error (.conflict key)
  | some entry =>
    if entry.revision = revision then .ok ((), entries.erase key) else .error (.conflict key)

variable [Codec α]

def lockPath (t : FileTable) : String :=
  t.path ++ ".lock"

/-- A table can be read by its owner only. -/
def mode : Nat := 0o600

def load (t : FileTable) (d : Disk) : Except CaError (Entries α) :=
  match d.read t.path with
  | .error .notFound => .ok []
  | .error e => .error (AtomicWrite.pathError t.path e)
  | .ok content =>
    match Snapshot.decode content with
    | some entries => .ok entries
    | none => .error (.storage ("Corrupt store file " ++ t.path))

def save (t : FileTable) (nonce : Nat) (d : Disk) (entries : Entries α) : Except CaError Unit × Disk :=
  AtomicWrite.write none nonce d t.path (Snapshot.encode entries) mode

/-- Opens a table, or makes the directory for a new one.  A table that cannot be read is not
opened. -/
def openAt (α : Type) [Codec α] (path : String) (d : Disk) : Except CaError FileTable × Disk :=
  let made : Except CaError Disk := match Path.parent? path with
    | none => .ok d
    | some parent => (d.makeDirectories parent).mapError (AtomicWrite.pathError parent)
  match made with
  | .error e => (.error e, d)
  | .ok d =>
    match (FileTable.mk path).load (α := α) d with
    | .error e => (.error e, d)
    | .ok _ => (.ok ⟨path⟩, d)

/-- Changes a table under its lock. -/
def mutate {β : Type} (t : FileTable) (nonce : Nat) (d : Disk)
    (change : Entries α → Except CaError (β × Entries α)) : Except CaError β × Disk :=
  match d.openOrCreate t.lockPath with
  | .error e => (.error (AtomicWrite.pathError t.lockPath e), d)
  | .ok d =>
    match t.load d with
    | .error e => (.error e, d)
    | .ok entries =>
      match change entries with
      | .error e => (.error e, d)
      | .ok (answer, entries) =>
        match t.save nonce d entries with
        | (.error e, d) => (.error e, d)
        | (.ok (), d) => (.ok answer, d)

/-- Answers a call.  The nonce tells the temporary file of this call from all others. -/
def step (t : FileTable) (nonce : Nat) (d : Disk) (call : TableCall α) : call.Reply × Disk :=
  match call with
  | .get key => ((t.load d).map (·.find? key), d)
  | .create key value => t.mutate nonce d (create key value)
  | .update key value revision => t.mutate nonce d (update key value revision)
  | .delete key revision => t.mutate nonce d (delete (α := α) key revision)
  | .list => (t.load d, d)

end FileTable

end CertAuthority
