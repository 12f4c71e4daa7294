import CertAuthority.Identifier
import CertAuthority.Text.Character

/-!
# Issued certificates and revocations

The record of a certificate, of its revocation, and the status that follows from both and the
clock: a revoked certificate is revoked whatever its dates, and one that is not revoked has
expired once the clock is past its end.
-/

namespace CertAuthority

/-- Why a certificate was issued. -/
inductive CertificateIssuer where
  | request (id : RequestId)
  | autoRenewal
  deriving Repr, DecidableEq, Inhabited

def CertificateIssuer.text : CertificateIssuer → String
  | .request id => id.text
  | .autoRenewal => "auto-renewal"

structure IssuedCertificate where
  serialNumber : SerialNumber
  subjectCommonName : String
  subjectDn : String
  certificatePem : String
  fingerprintSha256 : String
  issuedAt : Instant
  expiresAt : Instant
  issuer : CertificateIssuer
  deriving DecidableEq, Inhabited

inductive CertificateStatus where
  | active
  | expired
  | revoked
  deriving Repr, DecidableEq, Inhabited

namespace CertificateStatus

def classify (revoked : Bool) (expiresAt now : Instant) : CertificateStatus :=
  if revoked then .revoked else if expiresAt < now then .expired else .active

def text : CertificateStatus → String
  | .active => "active"
  | .expired => "expired"
  | .revoked => "revoked"

def ofText? : String → Option CertificateStatus
  | "active" => some .active
  | "expired" => some .expired
  | "revoked" => some .revoked
  | _ => none

/-- Reads a typed status in any letter case. -/
def parse (s : String) : Except CaError CertificateStatus :=
  let lower := Text.lowerAscii s
  match ofText? lower with
  | some status => .ok status
  | none => .error (.invalidArgument ("unknown certificate status: " ++ lower))

end CertificateStatus

structure Revocation where
  serialNumber : SerialNumber
  revokedAt : Instant
  revokedBy : String
  deriving DecidableEq, Inhabited

/-- A line of the list of certificates. -/
structure CertificateSummary where
  serialNumber : SerialNumber
  subjectCommonName : String
  status : CertificateStatus
  issuedAt : Instant
  expiresAt : Instant
  issuer : CertificateIssuer
  deriving DecidableEq, Inhabited

/-- The line for a certificate in a given status. -/
def IssuedCertificate.summary (c : IssuedCertificate) (status : CertificateStatus) :
    CertificateSummary :=
  { serialNumber := c.serialNumber, subjectCommonName := c.subjectCommonName, status
    issuedAt := c.issuedAt, expiresAt := c.expiresAt, issuer := c.issuer }

end CertAuthority
