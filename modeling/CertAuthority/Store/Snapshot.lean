import CertAuthority.Store.Call

/-!
# The written form of a table

A table is written as a JSON object whose keys are the table's, in ascending order.  A file that
is absent or blank is an empty table; of entries with one key the last one counts.
-/

namespace CertAuthority.Snapshot

open Json (Codec Reader)

/-- The blanks that make a file count as empty. -/
def isBlank (b : UInt8) : Bool :=
  b = 0x20 ∨ b = 0x09 ∨ b = 0x0A ∨ b = 0x0C ∨ b = 0x0D

def read {α : Type} [Codec α] : Reader (Entries α) := fun level t =>
  (Reader.entries Codec.read level t).map Json.sortedFields

/-- The entries in the bytes of a file. -/
def decode {α : Type} [Codec α] (content : Bytes) : Option (Entries α) :=
  if content.all isBlank then some []
  else (Bytes.toString? content).bind (Json.readText read)

/-- The bytes of a file that holds the entries. -/
def encode {α : Type} [Codec α] (entries : Entries α) : Bytes :=
  Bytes.ofString (Json.toPrettyText (.object (entries.map fun (k, e) => (k, Codec.write e))))

/-- The entries with a new one in its place by key. -/
def insert {α : Type} (entries : Entries α) (key : String) (value : α) : Entries α :=
  Json.insertField key (Versioned.fresh value) entries

end CertAuthority.Snapshot
