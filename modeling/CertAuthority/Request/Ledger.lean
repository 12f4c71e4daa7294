import CertAuthority.Authority.Issuance
import CertAuthority.Certificate.Registry

/-!
# The ledger of requests

A request is entered as pending and decided once.  An approval signs the certificate, writes the
decision at the revision that was read, and only then enters the certificate: an approval that
comes too late leaves nothing behind.
-/

namespace CertAuthority.Ledger

/-- A request that is yet to get its identifier. -/
structure Submission where
  csrPem : String
  subject : SubjectIdentity
  source : IpAddress
  tokenId : TokenId
  agentInfo : Json

/-- The entry of a submission. -/
def Submission.entry (s : Submission) (id : RequestId) (now : Instant) : CertificateRequest :=
  CertificateRequest.create id s.csrPem s.subject s.source s.tokenId s.agentInfo now

/-- How often an identifier is drawn. -/
def maxAttempts : Nat := 5

/-- What follows upon the attempt to enter a request. -/
def entered (id : RequestId) (retry : Procedure RequestId) : Except CaError Nat → Procedure RequestId
  | .ok _ => .done id
  | .error (.conflict _) => retry
  | .error e => .error e

def submitFrom (s : Submission) : Nat → Procedure RequestId
  | 0 => .error (.internal "Failed to allocate a unique request id")
  | attempts + 1 =>
    .call .now fun now =>
      .call (.random 4) fun tail =>
        let id := RequestId.ofRandom now tail
        .call (.table .requests (.create id.text (s.entry id now)))
          (entered id (submitFrom s attempts))

/-- Enters a request; the caller has checked it and spent its token. -/
def submit (s : Submission) : Procedure RequestId :=
  submitFrom s maxAttempts

/-- A request with its revision. -/
def find (id : RequestId) : Procedure (Versioned CertificateRequest) := do
  match ← Procedure.query .requests (.get id.text) with
  | some entry => return entry
  | none => .error (.requestNotFound id.text)

def get (id : RequestId) : Procedure CertificateRequest := do
  return (← find id).value

/-- The later of two submissions first, those of one time by identifier, the greater first. -/
def newerFirst (a b : CertificateRequest) : Bool :=
  if b.submittedAt < a.submittedAt then true
  else if a.submittedAt < b.submittedAt then false
  else b.requestId.text ≤ a.requestId.text

def olderFirst (a b : CertificateRequest) : Bool :=
  newerFirst b a

/-- All requests, the newest first. -/
def ordered (entries : Entries CertificateRequest) : List CertificateRequest :=
  (entries.map (·.2.value)).mergeSort newerFirst

/-- The requests that wait for a decision, the oldest first. -/
def queue (entries : Entries CertificateRequest) : List CertificateRequest :=
  ((entries.map (·.2.value)).filter (·.status = .pendingApproval)).mergeSort olderFirst

def list : Procedure (List CertificateRequest) := do
  return ordered (← Procedure.query .requests .list)

def listPending : Procedure (List CertificateRequest) := do
  return queue (← Procedure.query .requests .list)

/-- Refuses a decision that nobody takes. -/
def requirePrincipal (principal role : String) : Except CaError Unit :=
  if Text.isAllBlank principal then .error (.invalidArgument (role ++ " must not be empty"))
  else .ok ()

/-- A decision for a request. -/
structure Approval where
  requestId : RequestId
  approver : String
  days : Nat
  comment : String
  deriving Repr, DecidableEq

/-- Refuses an approval before anything is read. -/
def Approval.check (approval : Approval) (maxDays : Nat) : Except CaError Unit :=
  match requirePrincipal approval.approver "approver" with
  | .error e => .error e
  | .ok () =>
    if approval.days = 0 ∨ maxDays < approval.days then
      .error (.invalidArgument ("validity_days must be between 1 and " ++ toString maxDays))
    else .ok ()

/-- Writes the decision, then enters the certificate. -/
def commit (approval : Approval) (current : Versioned CertificateRequest)
    (issued : IssuedCertificate) : Procedure IssuedCertificate := do
  let now ← Procedure.now
  let approved ← Procedure.ofExcept
    (current.value.markApproved issued approval.approver approval.comment now)
  let _ ← Procedure.query .requests
    (.update approval.requestId.text approved current.revision)
  Registry.record issued
  return issued

/-- Reads, signs and commits. -/
def decide (sign : Signer) (approval : Approval) : Procedure IssuedCertificate := do
  let current ← find approval.requestId
  Procedure.ofExcept current.value.ensurePending
  let issued ← sign current.value.csrPem approval.days (.request approval.requestId)
  commit approval current issued

/-- Approves a request, valid for at most `maxDays`. -/
def approve (sign : Signer) (maxDays : Nat) (approval : Approval) : Procedure IssuedCertificate :=
  match approval.check maxDays with
  | .error e => .error e
  | .ok () => Procedure.locked approval.requestId (decide sign approval)

/-- A decision against a request. -/
structure Rejection where
  requestId : RequestId
  rejecter : String
  reason : String
  deriving Repr, DecidableEq

def Rejection.check (rejection : Rejection) : Except CaError Unit :=
  match requirePrincipal rejection.rejecter "rejecter" with
  | .error e => .error e
  | .ok () =>
    if Text.isAllBlank rejection.reason then
      .error (.invalidArgument "rejection reason is required")
    else .ok ()

/-- Reads a request and writes it back as rejected. -/
def refuse (rejection : Rejection) : Procedure Unit := do
  let current ← find rejection.requestId
  let now ← Procedure.now
  let rejected ← Procedure.ofExcept
    (current.value.markRejected rejection.rejecter (Text.trim rejection.reason) now)
  let _ ← Procedure.query .requests
    (.update rejection.requestId.text rejected current.revision)

def reject (rejection : Rejection) : Procedure Unit :=
  match rejection.check with
  | .error e => .error e
  | .ok () => Procedure.locked rejection.requestId (refuse rejection)

end CertAuthority.Ledger
