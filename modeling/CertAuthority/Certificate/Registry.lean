import CertAuthority.Procedure

/-!
# The register of certificates and revocations

Certificates are entered once and never change.  A certificate may be revoked; that is entered
once too, and whoever revokes again is shown the first record.
-/

namespace CertAuthority.Registry

/-- Enters a certificate; a serial number that is taken is a conflict. -/
def record (certificate : IssuedCertificate) : Procedure Unit := do
  let _ ← Procedure.query .certificates (.create certificate.serialNumber.text certificate)

def get (serial : SerialNumber) : Procedure IssuedCertificate := do
  match ← Procedure.query .certificates (.get serial.text) with
  | some entry => return entry.value
  | none => .error (.unknownSerial serial.text)

def revocation (serial : SerialNumber) : Procedure (Option Revocation) := do
  return (← Procedure.query .revocations (.get serial.text)).map (·.value)

def isRevoked (serial : SerialNumber) : Procedure Bool := do
  return (← Procedure.query .revocations (.get serial.text)).isSome

/-- The record that was there first. -/
def earlier (serial : SerialNumber) : Procedure Revocation := do
  match ← revocation serial with
  | some found => return found
  | none => .error (.storage ("revocation of " ++ serial.text ++ " vanished"))

/-- What follows upon the attempt to enter a revocation. -/
def revoked (revocation : Revocation) : Except CaError Nat → Procedure Revocation
  | .ok _ => .done revocation
  | .error (.conflict _) => earlier revocation.serialNumber
  | .error e => .error e

/-- Revokes a certificate that is known. -/
def revoke (serial : SerialNumber) (revokedBy : String) : Procedure Revocation := do
  let _ ← get serial
  let now ← Procedure.now
  let revocation : Revocation := ⟨serial, now, revokedBy⟩
  let reply ← Procedure.ask .revocations (.create serial.text revocation)
  revoked revocation reply

def statusAt (serial : SerialNumber) (now : Instant) : Procedure CertificateStatus := do
  let certificate ← get serial
  let revoked ← isRevoked serial
  return CertificateStatus.classify revoked certificate.expiresAt now

def status (serial : SerialNumber) : Procedure CertificateStatus := do
  let now ← Procedure.now
  statusAt serial now

/-- The newest first, those of one time by serial number. -/
def precedes (a b : CertificateSummary) : Bool :=
  if b.issuedAt < a.issuedAt then true
  else if a.issuedAt < b.issuedAt then false
  else a.serialNumber.text ≤ b.serialNumber.text

/-- The lines of the list of certificates, given the keys of the revocations. -/
def summaries (now : Instant) (revoked : List String) (certificates : Entries IssuedCertificate)
    (filter : Option CertificateStatus) : List CertificateSummary :=
  let lines := certificates.map fun (key, entry) =>
    entry.value.summary
      (CertificateStatus.classify (revoked.contains key) entry.value.expiresAt now)
  let kept := lines.filter fun line =>
    match filter with
    | some status => line.status = status
    | none => true
  kept.mergeSort precedes

def list (filter : Option CertificateStatus) : Procedure (List CertificateSummary) := do
  let now ← Procedure.now
  let revocations ← Procedure.query .revocations .list
  let certificates ← Procedure.query .certificates .list
  return summaries now (revocations.map (·.1)) certificates filter

end CertAuthority.Registry
