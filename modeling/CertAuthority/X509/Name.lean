import CertAuthority.Asn1.Oid
import CertAuthority.Bytes.Hex

/-!
# Distinguished names

A name is a list of relative names, each a set of attributes.  Reading stops at the first
relative name without an attribute and ignores what follows it.
-/

namespace CertAuthority.X509

structure NameAttribute where
  type : Oid
  /-- The identifier byte of the value. -/
  tag : UInt8
  value : Bytes
  deriving Repr, DecidableEq, Inhabited

namespace NameAttribute

def read (input : Bytes) : Option (NameAttribute × Bytes) := do
  let (content, rest) ← Asn1.Element.expect Asn1.sequence input
  let (type, content) ← Oid.read content
  let (value, _) ← Asn1.Element.read content
  return (⟨type, value.identifier, value.content⟩, rest)

def encode (a : NameAttribute) : Bytes :=
  Asn1.encodeSequence [a.type.encode, Asn1.encode a.tag a.value]

/-- The value as text, if it is of a string type made of UTF-8. -/
def text? (a : NameAttribute) : Option String :=
  if a.tag = Asn1.utf8String ∨ a.tag = Asn1.printableString ∨ a.tag = Asn1.ia5String ∨
      a.tag = Asn1.numericString then
    Bytes.toString? a.value
  else none

/-- The units of sixteen bits of a string of two-byte characters; a last odd byte counts as a
unit of its own. -/
def units : Bytes → List Nat
  | [] => []
  | [a] => [a.toNat]
  | a :: b :: rest => (a.toNat * 256 + b.toNat) :: units rest

/-- The characters of units of sixteen bits; nothing if a surrogate stands alone. -/
def charsOfUnits : List Nat → Option (List Char)
  | [] => some []
  | [u] => if 0xD800 ≤ u ∧ u < 0xE000 then none else some [Char.ofNat u]
  | u :: v :: rest =>
    if 0xD800 ≤ u ∧ u < 0xDC00 then
      if 0xDC00 ≤ v ∧ v < 0xE000 then
        (charsOfUnits rest).map
          (Char.ofNat (0x10000 + (u - 0xD800) * 1024 + (v - 0xDC00)) :: ·)
      else none
    else if 0xDC00 ≤ u ∧ u < 0xE000 then none
    else (charsOfUnits (v :: rest)).map (Char.ofNat u :: ·)

/-- The identifiers of the string types that are shown as UTF-8. -/
def shownAsText : List UInt8 :=
  [Asn1.numericString, 0x1A, Asn1.printableString, 0x1B, 0x07, 0x19, Asn1.teletexString, 0x15,
    Asn1.utf8String, Asn1.ia5String]

/-- How a value is shown: text as it is, other values in hexadecimal. -/
def shownValue (a : NameAttribute) : Option String :=
  if shownAsText.contains a.tag then Bytes.toString? a.value
  else if a.tag = Asn1.bmpString then (charsOfUnits (units a.value)).map String.ofList
  else some (Hex.encodeUpper a.value)

/-- The short name of an attribute type. -/
def shortName (type : Oid) : String :=
  if type = Oid.commonName then "CN"
  else if type = Oid.country then "C"
  else if type = Oid.locality then "L"
  else if type = Oid.state then "ST"
  else if type = Oid.organization then "O"
  else if type = Oid.organizationalUnit then "OU"
  else if type = Oid.domainComponent then "DC"
  else if type = Oid.emailAddress then "Email"
  else if type = Oid.serialNumber then "serialNumber"
  else if type = Oid.userId then "uid"
  else if type = Oid.title then "title"
  else "OID(" ++ type.text ++ ")"

def shown (a : NameAttribute) : Option String :=
  a.shownValue.map fun value => shortName a.type ++ "=" ++ value

end NameAttribute

structure Name where
  relativeNames : List (List NameAttribute)
  deriving Repr, DecidableEq, Inhabited

namespace Name

/-- A set of at least one attribute; what cannot be read after the first is ignored. -/
def readRelativeName (input : Bytes) : Option (List NameAttribute × Bytes) := do
  let (content, rest) ← Asn1.Element.expect Asn1.set input
  match Asn1.Element.leading NameAttribute.read content with
  | [] => none
  | attributes => return (attributes, rest)

def ofContent (content : Bytes) : Name :=
  ⟨Asn1.Element.leading readRelativeName content⟩

def read (input : Bytes) : Option (Name × Bytes) := do
  let (content, rest) ← Asn1.Element.expect Asn1.sequence input
  return (ofContent content, rest)

def encode (name : Name) : Bytes :=
  Asn1.encodeSequence
    (name.relativeNames.map fun attributes =>
      Asn1.encode Asn1.set (attributes.flatMap NameAttribute.encode))

def attributes (name : Name) : List NameAttribute :=
  name.relativeNames.flatten

/-- The text of the first attribute of a type; nothing if that one has no text. -/
def firstText? (name : Name) (type : Oid) : Option String :=
  (name.attributes.find? (·.type = type)).bind (·.text?)

def commonName? (name : Name) : Option String :=
  name.firstText? Oid.commonName

def organizationalUnit? (name : Name) : Option String :=
  name.firstText? Oid.organizationalUnit

/-- The name on one line, most general part first as it stands in the name. -/
def shown (name : Name) : String :=
  match name.relativeNames.mapM (·.mapM NameAttribute.shown) with
  | some parts => ", ".intercalate (parts.map (" + ".intercalate ·))
  | none => "<X509Error: Invalid X.509 name>"

end Name

end CertAuthority.X509
