import CertAuthority.X509.Name

/-!
# Extensions

An extension has a type, a flag that says whether a reader must understand it, and a value.
This module also reads the values that the authority looks into.
-/

namespace CertAuthority.X509

structure Extension where
  oid : Oid
  critical : Bool
  value : Bytes
  deriving Repr, DecidableEq, Inhabited

namespace Extension

/-- A flag that may be left out; any value but zero is true. -/
def readFlag (input : Bytes) : Bool × Bytes :=
  match Asn1.Element.expect Asn1.boolean input with
  | some ([b], rest) => (b ≠ 0, rest)
  | _ => (false, input)

def read (input : Bytes) : Option (Extension × Bytes) := do
  let (content, rest) ← Asn1.Element.expect Asn1.sequence input
  let (oid, content) ← Oid.read content
  let (critical, content) := readFlag content
  let (value, _) ← Asn1.Element.expect Asn1.octetString content
  return (⟨oid, critical, value⟩, rest)

def readSequence (input : Bytes) : Option (List Extension × Bytes) := do
  let (content, rest) ← Asn1.Element.expect Asn1.sequence input
  let extensions ← Asn1.Element.all read content
  return (extensions, rest)

def encode (e : Extension) : Bytes :=
  Asn1.encodeSequence
    ([e.oid.encode] ++ (if e.critical then [Asn1.encodeTrue] else []) ++
      [Asn1.encode Asn1.octetString e.value])

/-- The only extension of a type; nothing if there is none or more than one. -/
def unique? (extensions : List Extension) (oid : Oid) : Option Extension :=
  match extensions.filter (·.oid = oid) with
  | [e] => some e
  | _ => none

end Extension

/-- A number of at most 32 bits. -/
def readNat32 (input : Bytes) : Option (Nat × Bytes) :=
  match Asn1.readNat input with
  | some (n, rest) => if n < Nat.pow 2 32 then some (n, rest) else none
  | none => none

/-- Whether the subject may issue certificates, and over how many levels. -/
structure BasicConstraints where
  isAuthority : Bool
  pathLength : Option Nat
  deriving Repr, DecidableEq

/-- A boolean that is written in full. -/
def readBoolean (input : Bytes) : Option (Bool × Bytes) :=
  match Asn1.Element.expect Asn1.boolean input with
  | some ([b], rest) => if b = 0 then some (false, rest) else if b = 0xFF then some (true, rest) else none
  | _ => none

def BasicConstraints.read (value : Bytes) : Option BasicConstraints := do
  let (content, _) ← Asn1.Element.expect Asn1.sequence value
  if content.isEmpty then return ⟨false, none⟩
  match readBoolean content with
  | some (isAuthority, []) => return ⟨isAuthority, none⟩
  | some (isAuthority, rest) =>
    let (n, rest) ← readNat32 rest
    if rest.isEmpty then return ⟨isAuthority, some n⟩ else none
  | none =>
    let (n, rest) ← readNat32 content
    if rest.isEmpty then return ⟨false, some n⟩ else none

/-- A name under which a certificate's holder is also known. -/
inductive GeneralName where
  | otherName (type : Oid) (value : Bytes)
  | email (name : Bytes)
  | dns (name : Bytes)
  | uri (name : Bytes)
  | ip (octets : Bytes)
  | other (tag : UInt8)
  deriving Repr, DecidableEq

namespace GeneralName

def ofElement (e : Asn1.Element) : Option GeneralName :=
  let ascii (make : Bytes → GeneralName) : Option GeneralName :=
    if Bytes.isAscii e.content then some (make e.content) else none
  if e.identifier = Asn1.context 0 then
    (Oid.read e.content).map fun (type, value) => .otherName type value
  else if e.identifier = Asn1.contextPrimitive 1 then ascii .email
  else if e.identifier = Asn1.contextPrimitive 2 then ascii .dns
  else if e.identifier = Asn1.contextPrimitive 6 then ascii .uri
  else if e.identifier = Asn1.contextPrimitive 7 then some (.ip e.content)
  else if e.identifier.toNat % 32 ≤ 8 ∧ 0x80 ≤ e.identifier ∧ e.identifier < 0xC0 then
    some (.other e.identifier)
  else none

def read (input : Bytes) : Option (GeneralName × Bytes) := do
  let (e, rest) ← Asn1.Element.read input
  return (← ofElement e, rest)

def readSequence (value : Bytes) : Option (List GeneralName) := do
  let (content, _) ← Asn1.Element.expect Asn1.sequence value
  Asn1.Element.all read content

def encode : GeneralName → Bytes
  | .otherName type value => Asn1.encode (Asn1.context 0) (type.encode ++ value)
  | .email name => Asn1.encode (Asn1.contextPrimitive 1) name
  | .dns name => Asn1.encode (Asn1.contextPrimitive 2) name
  | .uri name => Asn1.encode (Asn1.contextPrimitive 6) name
  | .ip octets => Asn1.encode (Asn1.contextPrimitive 7) octets
  | .other tag => Asn1.encode tag []

end GeneralName

/-- The purposes of an extended key usage. -/
def readPurposes (value : Bytes) : Option (List Oid) := do
  let (content, _) ← Asn1.Element.expect Asn1.sequence value
  Asn1.Element.all Oid.read content

/-- The key identifier in a subject key identifier. -/
def readKeyIdentifier (value : Bytes) : Option Bytes :=
  (Asn1.Element.expect Asn1.octetString value).map (·.1)

end CertAuthority.X509
