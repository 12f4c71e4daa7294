import CertAuthority.Authority.Basic
import CertAuthority.Certificate.Basic
import CertAuthority.Csr.Candidate
import CertAuthority.Procedure

/-!
# Certificates that the authority issues

A certificate is made from what a request asks for and from what the authority fixes; it is signed
as one step of a procedure.
-/

/-! ## Issuing certificates

A certificate that the authority issues takes subject, key and alternative names from a
candidate.  All else is fixed: version three, not an authority, digital signature and key
encipherment for clients, and a validity that starts now and lasts a number of whole days.
-/

namespace CertAuthority

/-- Why a certificate was not issued. -/
inductive IssuanceFailure where
  | error (e : CaError)
  /-- A date of the certificate lies outside the calendar. -/
  | calendar
  deriving Repr, DecidableEq

namespace Issuance

open X509

/-- What was drawn at random for one certificate. -/
structure Draw where
  serial : Bytes
  nonce : Nat
  deriving Repr, DecidableEq

def authorityKeyIdentifier (a : Authority) : Extension :=
  ⟨Oid.authorityKeyIdentifier, false,
    Asn1.encodeSequence [Asn1.encode (Asn1.contextPrimitive 0) a.keyIdentifier]⟩

/-- The alternative names, which a reader must understand if the subject is empty. -/
def alternativeNames (c : Candidate) : List Extension :=
  if c.alternativeNames.isEmpty then []
  else
    [⟨Oid.subjectAltName, c.subject.relativeNames.isEmpty,
      Asn1.encodeSequence (c.alternativeNames.map GeneralName.encode)⟩]

/-- Digital signature and key encipherment. -/
def keyUsage : Extension :=
  ⟨Oid.keyUsage, true, Asn1.encode Asn1.bitString [5, 0xA0]⟩

def purposes : Extension :=
  ⟨Oid.extendedKeyUsage, false, Asn1.encodeSequence [Oid.clientAuth.encode]⟩

def subjectKeyIdentifier (c : Candidate) : Extension :=
  ⟨Oid.subjectKeyIdentifier, false,
    Asn1.encode Asn1.octetString (Authority.hashIdentifier c.publicInfo)⟩

def notAnAuthority : Extension :=
  ⟨Oid.basicConstraints, true, Asn1.encodeSequence []⟩

def extensions (a : Authority) (c : Candidate) : List Extension :=
  authorityKeyIdentifier a :: alternativeNames c ++
    [keyUsage, purposes, subjectKeyIdentifier c, notAnAuthority]

/-- The part of a certificate that is signed. -/
def encodeBody (a : Authority) (c : Candidate) (serial validity : Bytes) : Bytes :=
  Asn1.encodeSequence [
    Asn1.encode (Asn1.context 0) (Asn1.encodeNat 2),
    Asn1.encodeUnsigned serial,
    a.key.signatureAlgorithm,
    a.name.encode,
    validity,
    c.subject.encode,
    c.publicInfo,
    Asn1.encode (Asn1.context 3) (Asn1.encodeSequence ((extensions a c).map Extension.encode))]

/-- The first and the last second that a certificate's dates can give. -/
def firstSecond : Int := -377705116800
def lastSecond : Int := 253402300799

/-- The date of an instant, without its fraction. -/
def dateOf (t : Instant) : Except CaError CertificateDate :=
  if t.seconds < firstSecond ∨ lastSecond < t.seconds then
    .error (.internal "timestamp out of range")
  else .ok (CertificateDate.ofSeconds t.seconds)

/-- The certificate for a candidate. -/
def encodeCertificate (a : Authority) (c : Candidate) (validity : Bytes) (draw : Draw) :
    Option Bytes :=
  let body := encodeBody a c draw.serial validity
  (a.key.sign? draw.nonce body).map fun signature =>
    Asn1.encodeSequence [body, a.key.signatureAlgorithm, Asn1.encodeBits signature]

/-- The record of a certificate, whose names are read from what was signed. -/
def recordOf (c : Certificate) (der : Bytes) (draw : Draw) (issuer : CertificateIssuer)
    (issuedAt expiresAt : Instant) : IssuedCertificate where
  serialNumber := SerialNumber.ofBytes draw.serial
  subjectCommonName := c.subject.commonName?.getD ""
  subjectDn := c.subject.shown
  certificatePem := Pem.encodeUnix Authority.certificateTag der
  fingerprintSha256 := fingerprint der
  issuedAt
  expiresAt
  issuer

/-- Issues the certificate for a candidate. -/
def issue (a : Authority) (c : Candidate) (days : Nat) (issuer : CertificateIssuer) (now : Instant)
    (draw : Draw) : Except IssuanceFailure IssuedCertificate :=
  match now.addDays? days with
  | none => .error .calendar
  | some expiresAt =>
    match dateOf now, dateOf expiresAt with
    | .error e, _ | _, .error e => .error (.error e)
    | .ok notBefore, .ok notAfter =>
      match (Validity.mk notBefore notAfter).encode? with
      | none => .error .calendar
      | some validity =>
        match encodeCertificate a c validity draw with
        | none => .error (.error (.signing "Failed to sign certificate"))
        | some der =>
          match Certificate.read der with
          | none => .error (.error (.signing "Signed certificate is unreadable"))
          | some (certificate, _) => .ok (recordOf certificate der draw issuer now expiresAt)

/-- Issues the certificate that a text asks for. -/
def sign (a : Authority) (csrPem : String) (days : Nat) (issuer : CertificateIssuer)
    (now : Instant) (draw : Draw) : Except IssuanceFailure IssuedCertificate :=
  match Candidate.read? csrPem with
  | none => .error (.error (.signing "Failed to load CSR for signing"))
  | some candidate => issue a candidate days issuer now draw

end Issuance

/-! ## Signing as a step of a procedure

The certificate is made in a task of its own: should a date leave the calendar there, only the
task ends.
-/

/-- How the certificate that a text asks for is issued, for a number of days. -/
abbrev Signer := String → Nat → CertificateIssuer → Procedure IssuedCertificate

namespace Authority

/-- How many random bytes a signature may need. -/
def nonceSize : Nat := 72

/-- The result of a signing task. -/
def ofTask : Except IssuanceFailure IssuedCertificate → Procedure IssuedCertificate
  | .ok issued => .done issued
  | .error (.error e) => .error e
  | .error .calendar => .error (.signing "signing task failed")

/-- Signs the certificate that a text asks for, valid from now on. -/
def sign (a : Authority) : Signer := fun csrPem days issuer =>
  .call .now fun now =>
    .call (.random SerialNumber.size) fun serial =>
      .call (.random nonceSize) fun nonce =>
        ofTask (Issuance.sign a csrPem days issuer now
          ⟨SerialNumber.bytesOfRandom serial, Bytes.toNat nonce⟩)

end Authority

end CertAuthority
