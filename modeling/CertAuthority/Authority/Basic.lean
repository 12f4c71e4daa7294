import CertAuthority.Pem
import CertAuthority.X509.Certificate
import CertAuthority.X509.SigningKey
import CertAuthority.X509.SingleValued

/-!
# The authority's own key and certificate

An authority signs with a private key and publishes a certificate for it.  The two are read
together: the certificate must be one of an authority, hold the key's public half, and be
signed with it.
-/

namespace CertAuthority

structure Authority where
  key : X509.SigningKey
  /-- The name under which the authority issues. -/
  name : X509.Name
  /-- What names the authority's key in the certificates that it issues. -/
  keyIdentifier : Bytes
  certificatePem : String
  certificateDer : Bytes
  /-- The subject of the authority's certificate as it is shown. -/
  subjectDn : String
  notAfter : Instant
  deriving Repr, DecidableEq

namespace Authority

/-- The tag of a certificate's block. -/
def certificateTag : String := "CERTIFICATE"

def fingerprint (a : Authority) : String :=
  CertAuthority.fingerprint a.certificateDer

/-- The form for diagnostics, which leaves the key out. -/
def inspected (a : Authority) : String :=
  "CaIdentity \x7b subject_dn: " ++ Text.quote a.subjectDn ++ ", fingerprint_sha256: " ++
    Text.quote a.fingerprint ++ ", .. \x7d"

/-- The first twenty bytes of the hash of a public key. -/
def hashIdentifier (publicInfo : Bytes) : Bytes :=
  (Sha2.sha256 publicInfo).take 20

/-- The key identifier that a certificate states. -/
def statedIdentifier? (c : X509.Certificate) : Option Bytes :=
  (c.extensions.find? (·.oid = Oid.subjectKeyIdentifier)).bind fun e =>
    X509.readKeyIdentifier e.value

/-- The certificate in a text. -/
def readCertificate (pem : String) : Except CaError (Bytes × X509.Certificate) :=
  match Pem.contentsOf pem certificateTag with
  | .error e => .error (.keyMaterial ("CA certificate: " ++ e.message))
  | .ok der =>
    match X509.Certificate.read der with
    | none => .error (.keyMaterial "Failed to parse CA certificate")
    | some (certificate, _) => .ok (der, certificate)

/-- The authority of a key and a certificate that fit together. -/
def ofParts (key : X509.SigningKey) (pem : String) (der : Bytes) (certificate : X509.Certificate) :
    Except CaError Authority :=
  if !certificate.isAuthority then
    .error (.keyMaterial "Loaded certificate is not a CA certificate")
  else if certificate.publicKey.key ≠ key.publicBits then
    .error (.keyMaterial "CA certificate public key does not match the CA private key")
  else if !certificate.isSelfSigned then
    .error (.keyMaterial "CA certificate is not self-signed")
  else
    match certificate.subject.singleValued? with
    | none => .error (.keyMaterial "Failed to read CA parameters")
    | some name =>
      .ok {
        key, name
        keyIdentifier := (statedIdentifier? certificate).getD (hashIdentifier key.publicInfo)
        certificatePem := pem
        certificateDer := der
        subjectDn := certificate.subject.shown
        notAfter := Instant.ofSeconds certificate.validity.notAfter.seconds }

/-- The authority in the texts of a key and a certificate. -/
def read (keyPem certificatePem : String) : Except CaError Authority :=
  match (Pem.parse keyPem).bind fun block => X509.SigningKey.read block.contents with
  | none => .error (.keyMaterial "Failed to parse CA key")
  | some key =>
    match readCertificate certificatePem with
    | .error e => .error e
    | .ok (der, certificate) => ofParts key certificatePem der certificate

end Authority

end CertAuthority
