import CertAuthority.Certificate.Basic

/-!
# Certificate requests

A request is pending until it is approved or rejected; either decision is final.  What the
agent submitted never changes, a decision fills in its own fields only.
-/

namespace CertAuthority

inductive RequestStatus where
  | pendingApproval
  | approved
  | rejected
  deriving Repr, DecidableEq, Inhabited

namespace RequestStatus

def isTerminal : RequestStatus → Bool
  | .pendingApproval => false
  | .approved | .rejected => true

def text : RequestStatus → String
  | .pendingApproval => "pending_approval"
  | .approved => "approved"
  | .rejected => "rejected"

def ofText? : String → Option RequestStatus
  | "pending_approval" => some .pendingApproval
  | "approved" => some .approved
  | "rejected" => some .rejected
  | _ => none

end RequestStatus

structure CertificateRequest where
  requestId : RequestId
  csrPem : String
  subject : SubjectIdentity
  sourceIp : IpAddress
  bootstrapTokenId : TokenId
  status : RequestStatus
  submittedAt : Instant
  agentInfo : Json
  certificatePem : Option String
  serialNumber : Option SerialNumber
  expiresAt : Option Instant
  approvedAt : Option Instant
  approvedBy : Option String
  approvalComment : Option String
  rejectedAt : Option Instant
  rejectedBy : Option String
  rejectReason : Option String
  deriving Inhabited

namespace CertificateRequest

/-- A fresh request, pending. -/
def create (requestId : RequestId) (csrPem : String) (subject : SubjectIdentity)
    (sourceIp : IpAddress) (bootstrapTokenId : TokenId) (agentInfo : Json) (now : Instant) :
    CertificateRequest :=
  { requestId, csrPem, subject, sourceIp, bootstrapTokenId, status := .pendingApproval
    submittedAt := now, agentInfo, certificatePem := none, serialNumber := none
    expiresAt := none, approvedAt := none, approvedBy := none, approvalComment := none
    rejectedAt := none, rejectedBy := none, rejectReason := none }

/-- Refuses a request that is already decided. -/
def ensurePending (r : CertificateRequest) : Except CaError Unit :=
  if r.status.isTerminal then .error (.invalidTransition r.requestId.text r.status.text)
  else .ok ()

def markApproved (r : CertificateRequest) (issued : IssuedCertificate) (approver comment : String)
    (now : Instant) : Except CaError CertificateRequest := do
  r.ensurePending
  return { r with
    status := .approved
    certificatePem := some issued.certificatePem
    serialNumber := some issued.serialNumber
    expiresAt := some issued.expiresAt
    approvedAt := some now
    approvedBy := some approver
    approvalComment := if comment = "" then none else some comment }

def markRejected (r : CertificateRequest) (rejecter reason : String) (now : Instant) :
    Except CaError CertificateRequest := do
  r.ensurePending
  return { r with
    status := .rejected
    rejectedAt := some now
    rejectedBy := some rejecter
    rejectReason := some reason }

end CertificateRequest

/-- What an agent sees of its request. -/
structure RequestView where
  requestId : RequestId
  status : RequestStatus
  submittedAt : Instant
  certificatePem : Option String
  caCertificatePem : Option String
  serialNumber : Option SerialNumber
  expiresAt : Option Instant
  approvedAt : Option Instant
  approvedBy : Option String
  rejectedAt : Option Instant
  rejectedBy : Option String
  reason : Option String
  deriving Inhabited, DecidableEq

/-- The view of a request; the authority's own certificate comes with an approval. -/
def CertificateRequest.view (r : CertificateRequest) (caCertificatePem : String) : RequestView :=
  { requestId := r.requestId, status := r.status, submittedAt := r.submittedAt
    certificatePem := r.certificatePem
    caCertificatePem := if r.status = .approved then some caCertificatePem else none
    serialNumber := r.serialNumber, expiresAt := r.expiresAt, approvedAt := r.approvedAt
    approvedBy := r.approvedBy, rejectedAt := r.rejectedAt, rejectedBy := r.rejectedBy
    reason := r.rejectReason }

end CertAuthority
