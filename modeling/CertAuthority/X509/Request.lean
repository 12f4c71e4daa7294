import CertAuthority.X509.Extension
import CertAuthority.X509.Signature

/-!
# Certification requests

A request holds a subject, a public key and attributes, and is signed with that key.  Bytes
behind the request, and behind the parts inside it, are ignored.
-/

namespace CertAuthority.X509

/-- An attribute of a request. -/
inductive RequestAttribute where
  | extensions (requested : List Extension)
  | other (type : Oid)
  deriving Repr, DecidableEq

namespace RequestAttribute

/-- The string types of a challenge password. -/
def isPassword (e : Asn1.Element) : Bool :=
  [Asn1.utf8String, Asn1.printableString, Asn1.teletexString, Asn1.bmpString,
    Asn1.universalString, Asn1.ia5String].contains e.identifier

def read (input : Bytes) : Option (RequestAttribute × Bytes) := do
  let (content, rest) ← Asn1.Element.expect Asn1.sequence input
  let (type, content) ← Oid.read content
  let (values, _) ← Asn1.Element.expect Asn1.set content
  if type = Oid.extensionRequest then
    let (requested, _) ← Extension.readSequence values
    return (.extensions requested, rest)
  else if type = Oid.challengePassword then
    let (e, _) ← Asn1.Element.read values
    if isPassword e then return (.other type, rest) else none
  else return (.other type, rest)

end RequestAttribute

structure Request where
  version : Nat
  subject : Name
  publicKey : PublicKeyInfo
  attributes : List RequestAttribute
  /-- The part that is signed. -/
  info : Bytes
  algorithm : Algorithm
  signature : Bytes
  deriving Repr, DecidableEq, Inhabited

namespace Request

/-- The signed part: version, subject, key and attributes. -/
def readInfo (input : Bytes) : Option ((Nat × Name × PublicKeyInfo × List RequestAttribute) × Bytes) := do
  let (content, rest) ← Asn1.Element.expect Asn1.sequence input
  let (version, content) ← readNat32 content
  let (subject, content) ← Name.read content
  let (key, content) ← PublicKeyInfo.read content
  let (attributes, content) ← Asn1.Element.expect (Asn1.context 0) content
  let attributes ← Asn1.Element.all RequestAttribute.read attributes
  if content.isEmpty then return ((version, subject, key, attributes), rest) else none

def read (input : Bytes) : Option Request := do
  let (content, _) ← Asn1.Element.expect Asn1.sequence input
  let ((version, subject, publicKey, attributes), afterInfo) ← readInfo content
  let info := content.take (content.length - afterInfo.length)
  let (algorithm, afterAlgorithm) ← Algorithm.read afterInfo
  let (signature, _) ← Asn1.readBits afterAlgorithm
  return { version, subject, publicKey, attributes, info, algorithm, signature }

/-- Whether the request is signed with its own key. -/
def isSelfSigned (forms : PointForms) (r : Request) : Bool :=
  verifies forms r.publicKey r.algorithm r.info r.signature

/-- The extensions of the first attribute that asks for any. -/
def requestedExtensions (r : Request) : List Extension :=
  (r.attributes.findSome? fun
    | .extensions requested => some requested
    | .other _ => none).getD []

end Request

end CertAuthority.X509
