import CertAuthority.Certificate.Basic
import CertAuthority.Crypto.Hash
import CertAuthority.Pem
import CertAuthority.X509.Certificate

/-!
# Audits of issued certificates

The certificate in a record is read again and held against the record and against the certificate
of its issuer.
-/

namespace CertAuthority

structure CertificateAudit where
  record : IssuedCertificate
  der : Bytes
  certificate : X509.Certificate
  /-- The bytes behind the certificate. -/
  trailing : Bytes
  /-- The key of the issuer. -/
  issuerKey : X509.PublicKeyInfo

namespace CertificateAudit

/-- Reads the certificate of a record; nothing if it or that of the issuer is none. -/
def ofRecord (record : IssuedCertificate) (issuerDer : Bytes) :
    Except CaError (Option CertificateAudit) :=
  match Pem.contentsOf record.certificatePem "CERTIFICATE" with
  | .error e => .error e
  | .ok der =>
    .ok do
      let (certificate, trailing) ← X509.Certificate.read der
      let (issuer, _) ← X509.Certificate.read issuerDer
      return { record, der, certificate, trailing, issuerKey := issuer.publicKey }

/-- Whether the certificate bears the serial number of the record. -/
def serialMatches (a : CertificateAudit) : Bool :=
  Hex.encodeUpper a.certificate.serial = a.record.serialNumber.text

def fingerprintMatches (a : CertificateAudit) : Bool :=
  fingerprint a.der = a.record.fingerprintSha256

/-- Whether the certificate begins in the second in which the record says it was issued. -/
def beginMatches (a : CertificateAudit) : Bool :=
  a.certificate.validity.notBefore.seconds = a.record.issuedAt.seconds

def endMatches (a : CertificateAudit) : Bool :=
  a.certificate.validity.notAfter.seconds = a.record.expiresAt.seconds

/-- How long the certificate is valid in seconds. -/
def lifetime (a : CertificateAudit) : Int :=
  a.certificate.validity.notAfter.seconds - a.certificate.validity.notBefore.seconds

/-- Whether the issuer has signed the certificate. -/
def verifies (a : CertificateAudit) : Bool :=
  a.certificate.isSignedBy a.issuerKey

/-- The dates, and whether they are written with four digits of the year. -/
def datesJson (a : CertificateAudit) : Json :=
  let first := a.certificate.validity.notBefore
  let last := a.certificate.validity.notAfter
  .array [.number (.int first.seconds), .number (.int last.seconds), .bool first.isGeneralized,
    .bool last.isGeneralized]

def attributeJson (a : X509.NameAttribute) : Json :=
  .array [.string a.type.text, .nat (a.tag.toNat % 32), .string (Hex.encodeLower a.value)]

def extensionJson (e : X509.Extension) : Json :=
  .array [.string e.oid.text, .bool e.critical, .string (Hex.encodeLower e.value)]

/-- Extensions by the text of their type. -/
def sortedExtensions (extensions : List X509.Extension) : List X509.Extension :=
  extensions.mergeSort fun a b => a.oid.text ≤ b.oid.text

/-- The report of an audit, which may leave out the dates. -/
def report (a : CertificateAudit) (withDates : Bool) : Json :=
  let c := a.certificate
  .object [
    ("dates", if withDates then a.datesJson else .null),
    ("version", .nat c.version),
    ("trailing_bytes", .nat a.trailing.length),
    ("crlf", .bool (a.record.certificatePem.toList.contains '\r')),
    ("serial_bytes", .nat c.serial.length),
    ("serial_matches", .bool a.serialMatches),
    ("fingerprint_matches", .bool a.fingerprintMatches),
    ("signature_algorithm", .string c.algorithm.oid.text),
    ("issuer", .string c.issuer.shown),
    ("subject", .string c.subject.shown),
    ("subject_attributes", .array (c.subject.attributes.map attributeJson)),
    ("lifetime_secs", .number (.int a.lifetime)),
    ("not_before_matches", .bool a.beginMatches),
    ("not_after_matches", .bool a.endMatches),
    ("public_key", .string (Hex.encodeLower c.publicKey.encoded)),
    ("extensions", .array ((sortedExtensions c.extensions).map extensionJson)),
    ("is_ca", .bool c.isAuthority),
    ("verifies", .bool a.verifies)]

end CertificateAudit

end CertAuthority
