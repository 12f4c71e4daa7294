import CertAuthority.Certificate.Basic

/-!
# Certificates and revocations in JSON
-/

namespace CertAuthority

open Json (Codec Reader Fields writeOption)

namespace CertificateIssuer

def toJson : CertificateIssuer → Json
  | .request id => .object [("request", .string id.text)]
  | .autoRenewal => .string "auto-renewal"

def read : Reader CertificateIssuer := fun level t => do
  match ← Json.alternative level t with
  | ("request", some t, level) => (Codec.read level t).map .request
  | ("auto-renewal", content, _) => if Json.Tree.isBare content then return .autoRenewal else none
  | _ => none

instance : Codec CertificateIssuer := ⟨toJson, read⟩

end CertificateIssuer

instance : Codec CertificateStatus where
  write s := .string s.text
  read level t := do
    let (name, content, _) ← Json.alternative level t
    if Json.Tree.isBare content then CertificateStatus.ofText? name else none

namespace IssuedCertificate

def toJson (c : IssuedCertificate) : Json :=
  .object [
    ("serial_number", Codec.write c.serialNumber),
    ("subject_common_name", Codec.write c.subjectCommonName),
    ("subject_dn", Codec.write c.subjectDn),
    ("certificate_pem", Codec.write c.certificatePem),
    ("fingerprint_sha256", Codec.write c.fingerprintSha256),
    ("issued_at", Codec.write c.issuedAt),
    ("expires_at", Codec.write c.expiresAt),
    ("issuer", Codec.write c.issuer)]

def fieldNames : List String :=
  ["serial_number", "subject_common_name", "subject_dn", "certificate_pem", "fingerprint_sha256",
    "issued_at", "expires_at", "issuer"]

def read : Reader IssuedCertificate := fun level t => do
  let f ← Fields.read fieldNames false level t
  return {
    serialNumber := ← f.required "serial_number" Codec.read
    subjectCommonName := ← f.required "subject_common_name" Codec.read
    subjectDn := ← f.required "subject_dn" Codec.read
    certificatePem := ← f.required "certificate_pem" Codec.read
    fingerprintSha256 := ← f.required "fingerprint_sha256" Codec.read
    issuedAt := ← f.required "issued_at" Codec.read
    expiresAt := ← f.required "expires_at" Codec.read
    issuer := ← f.required "issuer" Codec.read }

instance : Codec IssuedCertificate := ⟨toJson, read⟩

end IssuedCertificate

namespace Revocation

def toJson (r : Revocation) : Json :=
  .object [
    ("serial_number", Codec.write r.serialNumber),
    ("revoked_at", Codec.write r.revokedAt),
    ("revoked_by", Codec.write r.revokedBy)]

def read : Reader Revocation := fun level t => do
  let f ← Fields.read ["serial_number", "revoked_at", "revoked_by"] false level t
  return {
    serialNumber := ← f.required "serial_number" Codec.read
    revokedAt := ← f.required "revoked_at" Codec.read
    revokedBy := ← f.required "revoked_by" Codec.read }

instance : Codec Revocation := ⟨toJson, read⟩

end Revocation

namespace CertificateSummary

def toJson (s : CertificateSummary) : Json :=
  .object [
    ("serial_number", Codec.write s.serialNumber),
    ("subject_common_name", Codec.write s.subjectCommonName),
    ("status", Codec.write s.status),
    ("issued_at", Codec.write s.issuedAt),
    ("expires_at", Codec.write s.expiresAt),
    ("issuer", Codec.write s.issuer)]

def fieldNames : List String :=
  ["serial_number", "subject_common_name", "status", "issued_at", "expires_at", "issuer"]

def read : Reader CertificateSummary := fun level t => do
  let f ← Fields.read fieldNames false level t
  return {
    serialNumber := ← f.required "serial_number" Codec.read
    subjectCommonName := ← f.required "subject_common_name" Codec.read
    status := ← f.required "status" Codec.read
    issuedAt := ← f.required "issued_at" Codec.read
    expiresAt := ← f.required "expires_at" Codec.read
    issuer := ← f.required "issuer" Codec.read }

instance : Codec CertificateSummary := ⟨toJson, read⟩

end CertificateSummary

end CertAuthority
