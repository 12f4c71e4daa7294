import CertAuthority.Certificate.Json
import CertAuthority.Request.Basic

/-!
# Certificate requests in JSON

The record of a request writes absent fields as null; the view that agents see leaves them
out.
-/

namespace CertAuthority

open Json (Codec Reader Fields writeOption)

instance : Codec RequestStatus where
  write s := .string s.text
  read level t := do
    let (name, content, _) ← Json.alternative level t
    if Json.Tree.isBare content then RequestStatus.ofText? name else none

namespace CertificateRequest

def toJson (r : CertificateRequest) : Json :=
  .object [
    ("request_id", Codec.write r.requestId),
    ("csr_pem", Codec.write r.csrPem),
    ("subject", Codec.write r.subject),
    ("source_ip", Codec.write r.sourceIp),
    ("bootstrap_token_id", Codec.write r.bootstrapTokenId),
    ("status", Codec.write r.status),
    ("submitted_at", Codec.write r.submittedAt),
    ("agent_info", r.agentInfo),
    ("certificate_pem", writeOption r.certificatePem),
    ("serial_number", writeOption r.serialNumber),
    ("expires_at", writeOption r.expiresAt),
    ("approved_at", writeOption r.approvedAt),
    ("approved_by", writeOption r.approvedBy),
    ("approval_comment", writeOption r.approvalComment),
    ("rejected_at", writeOption r.rejectedAt),
    ("rejected_by", writeOption r.rejectedBy),
    ("reject_reason", writeOption r.rejectReason)]

def fieldNames : List String :=
  ["request_id", "csr_pem", "subject", "source_ip", "bootstrap_token_id", "status",
    "submitted_at", "agent_info", "certificate_pem", "serial_number", "expires_at",
    "approved_at", "approved_by", "approval_comment", "rejected_at", "rejected_by",
    "reject_reason"]

def read : Reader CertificateRequest := fun level t => do
  let f ← Fields.read fieldNames false level t
  return {
    requestId := ← f.required "request_id" Codec.read
    csrPem := ← f.required "csr_pem" Codec.read
    subject := ← f.required "subject" Codec.read
    sourceIp := ← f.required "source_ip" Codec.read
    bootstrapTokenId := ← f.required "bootstrap_token_id" Codec.read
    status := ← f.required "status" Codec.read
    submittedAt := ← f.required "submitted_at" Codec.read
    agentInfo := ← f.defaulted "agent_info" Reader.json .null
    certificatePem := ← f.optional "certificate_pem" Codec.read
    serialNumber := ← f.optional "serial_number" Codec.read
    expiresAt := ← f.optional "expires_at" Codec.read
    approvedAt := ← f.optional "approved_at" Codec.read
    approvedBy := ← f.optional "approved_by" Codec.read
    approvalComment := ← f.optional "approval_comment" Codec.read
    rejectedAt := ← f.optional "rejected_at" Codec.read
    rejectedBy := ← f.optional "rejected_by" Codec.read
    rejectReason := ← f.optional "reject_reason" Codec.read }

instance : Codec CertificateRequest := ⟨toJson, read⟩

end CertificateRequest

namespace RequestView

/-- A field that is left out when it is absent. -/
def present {α : Type} [Codec α] (name : String) : Option α → List (String × Json)
  | none => []
  | some a => [(name, Codec.write a)]

def toJson (v : RequestView) : Json :=
  .object (
    [("request_id", Codec.write v.requestId),
      ("status", Codec.write v.status),
      ("submitted_at", Codec.write v.submittedAt)] ++
    present "certificate_pem" v.certificatePem ++
    present "ca_certificate_pem" v.caCertificatePem ++
    present "serial_number" v.serialNumber ++
    present "expires_at" v.expiresAt ++
    present "approved_at" v.approvedAt ++
    present "approved_by" v.approvedBy ++
    present "rejected_at" v.rejectedAt ++
    present "rejected_by" v.rejectedBy ++
    present "reason" v.reason)

def fieldNames : List String :=
  ["request_id", "status", "submitted_at", "certificate_pem", "ca_certificate_pem",
    "serial_number", "expires_at", "approved_at", "approved_by", "rejected_at", "rejected_by",
    "reason"]

def read : Reader RequestView := fun level t => do
  let f ← Fields.read fieldNames false level t
  return {
    requestId := ← f.required "request_id" Codec.read
    status := ← f.required "status" Codec.read
    submittedAt := ← f.required "submitted_at" Codec.read
    certificatePem := ← f.optional "certificate_pem" Codec.read
    caCertificatePem := ← f.optional "ca_certificate_pem" Codec.read
    serialNumber := ← f.optional "serial_number" Codec.read
    expiresAt := ← f.optional "expires_at" Codec.read
    approvedAt := ← f.optional "approved_at" Codec.read
    approvedBy := ← f.optional "approved_by" Codec.read
    rejectedAt := ← f.optional "rejected_at" Codec.read
    rejectedBy := ← f.optional "rejected_by" Codec.read
    reason := ← f.optional "reason" Codec.read }

instance : Codec RequestView := ⟨toJson, read⟩

end RequestView

end CertAuthority
