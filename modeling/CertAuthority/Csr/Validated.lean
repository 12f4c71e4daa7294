import CertAuthority.Pem
import CertAuthority.Subject.Identity
import CertAuthority.X509.Request

/-!
# Admission of certification requests

A certification request is admitted if it is signed with its own key, under an algorithm and
with a key that this authority allows, and if its subject is an agent's identity.
-/

namespace CertAuthority

/-- The tag of a certification request's block. -/
def Csr.tag : String := "CERTIFICATE REQUEST"

/-- A kind of key that is allowed. -/
inductive KeyKind where
  | ed25519
  | ecdsa (curve : CurveName)
  | rsa (bits : Nat)
  deriving Repr, DecidableEq

def KeyKind.text : KeyKind → String
  | .ed25519 => "Ed25519"
  | .ecdsa .p256 => "ECDSA P-256"
  | .ecdsa .p384 => "ECDSA P-384"
  | .ecdsa .p521 => "ECDSA P-521"
  | .rsa bits => "RSA " ++ toString bits

/-- A request that passed every check, with the text it came in. -/
structure ValidatedCsr where
  pem : String
  identity : SubjectIdentity
  key : KeyKind
  deriving Repr, DecidableEq

namespace Csr

/-- The fewest bits of an RSA key. -/
def minRsaBits : Nat := 2048

/-- The size of an RSA key by the bytes of its modulus, a leading one for the sign not counted. -/
def rsaBits (modulus : Bytes) : Nat :=
  match modulus with
  | [] => 0
  | b :: rest => if b < 0x80 then 8 * rest.length else 8 * modulus.length

/-- The signature algorithms that are allowed. -/
def allowedAlgorithms : List Oid :=
  [Oid.ecdsaWithSha256, Oid.ecdsaWithSha384, Oid.sha256WithRsa, Oid.sha384WithRsa,
    Oid.sha512WithRsa, Oid.ed25519]

/-- The kind of a key, or why it is not allowed. -/
def checkKey (key : X509.PublicKeyInfo) : Except CaError KeyKind :=
  let oid := key.algorithm.oid
  if oid = Oid.ed25519 then .ok .ed25519
  else if oid = Oid.ecPublicKey then
    match key.algorithm.parameterOid? with
    | none => .error (.malformedCsr "EC key without named curve")
    | some curve =>
      if curve = Oid.curveP256 then .ok (.ecdsa .p256)
      else if curve = Oid.curveP384 then .ok (.ecdsa .p384)
      else .error (.malformedCsr ("Unsupported EC curve: " ++ curve.text))
  else
    match if oid = Oid.rsaEncryption then X509.readRsaIntegers key.key else none with
    | some (modulus, _) =>
      let bits := rsaBits modulus
      if bits < minRsaBits then
        .error (.malformedCsr
          ("RSA key too small: " ++ toString bits ++ " bits (minimum " ++ toString minRsaBits ++ ")"))
      else .ok (.rsa bits)
    | none => .error (.malformedCsr ("Unsupported public key algorithm: " ++ oid.text))

/-- The identity in the subject of a request. -/
def identityOf (subject : X509.Name) : Except IdentityError SubjectIdentity :=
  match subject.commonName? with
  | none => .error (.malformedSubject none "CSR must have CN")
  | some commonName => SubjectIdentity.ofParts commonName subject.organizationalUnit?

/-- The request in a text. -/
def read (pem : String) : Except CaError X509.Request :=
  match Pem.contentsOf pem tag with
  | .error e => .error e
  | .ok der =>
    match X509.Request.read der with
    | some request => .ok request
    | none => .error (.malformedCsr "Failed to parse CSR DER")

/-- The identity that a request asks for, without any further check. -/
def readIdentity (pem : String) : Except CaError SubjectIdentity :=
  match read pem with
  | .error e => .error e
  | .ok request => (identityOf request.subject).mapError .identity

/-- The checks of a request, in their order: signature, algorithm, key, identity. -/
def check (request : X509.Request) : Except CaError (SubjectIdentity × KeyKind) :=
  if !request.isSelfSigned .uncompressed then
    .error (.malformedCsr "CSR signature verification failed")
  else if !allowedAlgorithms.contains request.algorithm.oid then
    .error (.malformedCsr
      ("Disallowed CSR signature algorithm: " ++ request.algorithm.oid.text))
  else
    match checkKey request.publicKey with
    | .error e => .error e
    | .ok key =>
      match identityOf request.subject with
      | .error e => .error (.identity e)
      | .ok identity => .ok (identity, key)

/-- Admits a request or says why not. -/
def validate (pem : String) : Except CaError ValidatedCsr :=
  match read pem with
  | .error e => .error e
  | .ok request =>
    match check request with
    | .error e => .error e
    | .ok (identity, key) => .ok ⟨pem, identity, key⟩

end Csr

end CertAuthority
