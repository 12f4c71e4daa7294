import CertAuthority.Error
import CertAuthority.Json.Codec

/-!
# Versioned tables

A table keeps values under keys, each with a revision that grows with every write.  A value is
written only if the key is new, or if the writer names the revision that it read; otherwise the
table answers with a conflict and stays as it is.
-/

namespace CertAuthority

structure Versioned (α : Type) where
  value : α
  revision : Nat
  deriving Repr, DecidableEq, Inhabited

namespace Versioned

open Json (Codec Reader Fields)

/-- The revision of a value that is new. -/
def firstRevision : Nat := 1

/-- The revision after another one; revisions have 64 bits. -/
def nextRevision (revision : Nat) : Nat :=
  (revision + 1) % Nat.pow 2 64

def fresh {α : Type} (value : α) : Versioned α :=
  ⟨value, firstRevision⟩

/-- The entry after a write over it. -/
def overwrite {α : Type} (entry : Versioned α) (value : α) : Versioned α :=
  ⟨value, nextRevision entry.revision⟩

instance {α : Type} [Codec α] : Codec (Versioned α) where
  write v := .object [("value", Codec.write v.value), ("revision", Json.nat v.revision)]
  read level t := do
    let f ← Fields.read ["value", "revision"] false level t
    return ⟨← f.required "value" Codec.read, ← f.required "revision" Reader.nat64⟩

end Versioned

/-- Keys with their entries. -/
abbrev Entries (α : Type) := List (String × Versioned α)

namespace Entries

def find? {α : Type} (entries : Entries α) (key : String) : Option (Versioned α) :=
  (List.find? (fun e => e.1 = key) entries).map (·.2)

/-- The entries with another entry under a key that is present. -/
def replace {α : Type} (entries : Entries α) (key : String) (entry : Versioned α) : Entries α :=
  entries.map fun (k, e) => if k = key then (k, entry) else (k, e)

def erase {α : Type} (entries : Entries α) (key : String) : Entries α :=
  entries.filter (·.1 ≠ key)

end Entries

/-- A call to a table. -/
inductive TableCall (α : Type) where
  | get (key : String)
  | create (key : String) (value : α)
  | update (key : String) (value : α) (revision : Nat)
  | delete (key : String) (revision : Nat)
  | list

namespace TableCall

/-- What a call gives if it succeeds. -/
def Payload {α : Type} : TableCall α → Type
  | .get _ => Option (Versioned α)
  | .create _ _ => Nat
  | .update _ _ _ => Nat
  | .delete _ _ => Unit
  | .list => Entries α

abbrev Reply {α : Type} (call : TableCall α) :=
  Except CaError call.Payload

/-- The key that a call is about. -/
def key {α : Type} : TableCall α → String
  | .get key | .create key _ | .update key _ _ | .delete key _ => key
  | .list => ""

/-- The failure of a call with a given error. -/
def failed {α : Type} (call : TableCall α) (e : CaError) : call.Reply :=
  .error e

end TableCall

end CertAuthority
