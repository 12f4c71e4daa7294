import CertAuthority.Json.Printer
import CertAuthority.Json.Reader
import CertAuthority.Net.AddressSet
import CertAuthority.Time.Rfc3339

/-!
# Types with a JSON form

A codec pairs the writer of a type with its reader.  Instants and addresses are texts; a set
of addresses is an array, in ascending order when written.
-/

namespace CertAuthority.Json

class Codec (α : Type) where
  write : α → Json
  read : Reader α

instance : Codec String := ⟨.string, Reader.text⟩

/-- Unsigned integers of 64 bits. -/
def Reader.nat64 : Reader Nat :=
  Reader.natBelow (Nat.pow 2 64)

instance : Codec Nat := ⟨Json.nat, Reader.nat64⟩

instance : Codec Json := ⟨id, Reader.json⟩

instance : Codec Instant := ⟨fun t => .string (Time.render t), Reader.parsed Time.parse⟩

instance : Codec IpAddress := ⟨fun x => .string x.render, Reader.parsed IpAddress.parse⟩

instance : Codec AddressSet where
  write set := .array (set.addresses.map Codec.write)
  read level t := (Reader.array Codec.read level t).map AddressSet.ofList

/-- A field that is written as null when it is absent. -/
def writeOption {α : Type} [Codec α] : Option α → Json :=
  Json.ofOption Codec.write

/-- The value as compact text. -/
def encode {α : Type} [Codec α] (a : α) : String :=
  toText (Codec.write a)

/-- The value that a text holds. -/
def decode {α : Type} [Codec α] (text : String) : Option α :=
  readText Codec.read text

end CertAuthority.Json
