import CertAuthority.X509.Extension
import CertAuthority.X509.Signature
import CertAuthority.X509.Validity

/-!
# Certificates

A certificate binds a subject to a public key for a time and is signed by its issuer.  Bytes
behind the certificate, and behind the parts inside it, are ignored; the extensions must come
last.
-/

namespace CertAuthority.X509

structure Certificate where
  /-- Zero in a certificate of the first version, two in one of the third. -/
  version : Nat
  /-- The content of the serial number's integer. -/
  serial : Bytes
  issuer : Name
  validity : Validity
  subject : Name
  publicKey : PublicKeyInfo
  extensions : List Extension
  /-- The part that is signed. -/
  body : Bytes
  algorithm : Algorithm
  signature : Bytes
  deriving Repr, DecidableEq, Inhabited

namespace Certificate

def readVersion (input : Bytes) : Option (Nat × Bytes) := do
  match ← Asn1.Element.expectOptional (Asn1.context 0) input with
  | (some content, rest) => return ((← readNat32 content).1, rest)
  | (none, rest) => return (0, rest)

/-- The bits that may tell issuers or subjects of one name apart; they are not used. -/
def skipUniqueIds (input : Bytes) : Option Bytes := do
  let (_, rest) ← Asn1.Element.expectOptional (Asn1.contextPrimitive 1) input
  let (_, rest) ← Asn1.Element.expectOptional (Asn1.contextPrimitive 2) rest
  return rest

/-- The extensions, up to the end of the input. -/
def readExtensions (input : Bytes) : Option (List Extension) := do
  if input.isEmpty then return []
  let (content, rest) ← Asn1.Element.expect (Asn1.context 3) input
  let (extensions, inner) ← Extension.readSequence content
  if rest.isEmpty ∧ inner.isEmpty then return extensions else none

/-- The signed part, without the signature around it. -/
def readBody (body : Bytes) : Option Certificate := do
  let (content, _) ← Asn1.Element.expect Asn1.sequence body
  let (version, content) ← readVersion content
  let (serial, content) ← Asn1.Element.expect Asn1.integer content
  let (_, content) ← Algorithm.read content
  let (issuer, content) ← Name.read content
  let (validity, content) ← Validity.read content
  let (subject, content) ← Name.read content
  let (publicKey, content) ← PublicKeyInfo.read content
  let content ← skipUniqueIds content
  let extensions ← readExtensions content
  return { version, serial, issuer, validity, subject, publicKey, extensions, body
           algorithm := default, signature := [] }

/-- The certificate at the front of the input, and what follows it. -/
def read (input : Bytes) : Option (Certificate × Bytes) := do
  let (content, rest) ← Asn1.Element.expect Asn1.sequence input
  let (body, content) ← Asn1.Element.read content
  let certificate ← readBody body.encoded
  let (algorithm, content) ← Algorithm.read content
  let (signature, _) ← Asn1.readBits content
  return ({ certificate with algorithm, signature }, rest)

/-- Whether the subject may issue certificates: its one extension of basic constraints says so. -/
def isAuthority (c : Certificate) : Bool :=
  match Extension.unique? c.extensions Oid.basicConstraints with
  | some e =>
    match BasicConstraints.read e.value with
    | some constraints => constraints.isAuthority
    | none => false
  | none => false

/-- Whether the certificate is signed with a given key. -/
def isSignedBy (c : Certificate) (key : PublicKeyInfo) : Bool :=
  verifies .uncompressed key c.algorithm c.body c.signature

def isSelfSigned (c : Certificate) : Bool :=
  c.isSignedBy c.publicKey

end Certificate

end CertAuthority.X509
