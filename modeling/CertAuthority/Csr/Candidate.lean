import CertAuthority.Csr.Validated
import CertAuthority.X509.SigningKey
import CertAuthority.X509.SingleValued

/-!
# What a certificate takes from a request

A certificate takes three things from the request for it: the subject, in which each type of
attribute stands once; the public key, under the algorithm that the request's own signature
names; and the alternative names.  Of the other extensions that a request may ask for, those
that the authority decides about itself are passed over, and any further one is refused.
-/

namespace CertAuthority

structure Candidate where
  subject : X509.Name
  keyAlgorithm : X509.KeyAlgorithm
  key : Bytes
  alternativeNames : List X509.GeneralName
  deriving Repr, DecidableEq

namespace Candidate

/-- The key that a signature algorithm stands for. -/
def keyAlgorithm? (signature : Oid) : Option X509.KeyAlgorithm :=
  if signature = Oid.sha256WithRsa ∨ signature = Oid.sha384WithRsa ∨
      signature = Oid.sha512WithRsa then some .rsa
  else if signature = Oid.ecdsaWithSha256 then some (.ecdsa .p256)
  else if signature = Oid.ecdsaWithSha384 then some (.ecdsa .p384)
  else if signature = Oid.ed25519 then some .ed25519
  else none

/-- An alternative name as it is written. -/
def alternativeName? : X509.GeneralName → Option X509.GeneralName
  | .email name => some (.email name)
  | .dns name => some (.dns name)
  | .uri name => some (.uri name)
  | .ip octets => if octets.length = 4 ∨ octets.length = 16 then some (.ip octets) else none
  | .otherName type value => do
    let (outer, _) ← Asn1.Element.read value
    let (text, _) ← Asn1.Element.expect Asn1.utf8String outer.content
    if (Bytes.decodeUtf8 text).isSome then
      return .otherName type (Asn1.encode (Asn1.context 0) (Asn1.encode Asn1.utf8String text))
    else none
  | .other _ => none

/-- The purposes that a request may name. -/
def knownPurposes : List Oid :=
  [Oid.anyExtendedKeyUsage, Oid.serverAuth, Oid.clientAuth, Oid.codeSigning, Oid.emailProtection,
    Oid.timeStamping, Oid.ocspSigning]

/-- The alternative names that an extension asks for; nothing if it cannot be granted. -/
def granted? (e : X509.Extension) : Option (List X509.GeneralName) :=
  if e.oid = Oid.subjectAltName then do
    (← X509.GeneralName.readSequence e.value).mapM alternativeName?
  else if e.oid = Oid.keyUsage then
    if (Asn1.readBits e.value).isSome then some [] else none
  else if e.oid = Oid.extendedKeyUsage then
    match X509.readPurposes e.value with
    | some purposes => if purposes.all knownPurposes.contains then some [] else none
    | none => none
  else if e.oid = Oid.basicConstraints then
    match X509.BasicConstraints.read e.value with
    | some constraints => if constraints.pathLength.getD 0 < 256 then some [] else none
    | none => none
  else none

/-- The candidate in a request that is signed with its own key. -/
def ofRequest? (request : X509.Request) : Option Candidate := do
  if !request.isSelfSigned .any then none
  let keyAlgorithm ← keyAlgorithm? request.algorithm.oid
  let subject ← request.subject.singleValued?
  let names ← request.requestedExtensions.mapM granted?
  return { subject, keyAlgorithm, key := request.publicKey.key, alternativeNames := names.flatten }

/-- The candidate in a text, whatever tag its block has. -/
def read? (pem : String) : Option Candidate := do
  let block ← Pem.parse pem
  ofRequest? (← X509.Request.read block.contents)

/-- The public key with its algorithm. -/
def publicInfo (c : Candidate) : Bytes :=
  c.keyAlgorithm.encodeKey c.key

end Candidate

end CertAuthority
