import CertAuthority.Certificate.Renewal
import CertAuthority.Config.Basic
import CertAuthority.Request.Ledger
import CertAuthority.Token.Export
import CertAuthority.Token.Store

/-!
# The service of the authority

All that agents and operators can ask for, under the policies of one configuration.
-/

namespace CertAuthority

structure Service where
  authority : Authority
  issuance : IssuancePolicy
  tokens : TokenPolicy
  /-- How many rounds redeeming a token may take. -/
  redeemRounds : Nat

namespace Service

def certificatePem (s : Service) : String :=
  s.authority.certificatePem

/-- Whether a value may describe an agent. -/
def isAgentInfo : Json → Bool
  | .object _ | .null => true
  | _ => false

/-- The checks of a submission before its token is touched. -/
def checkSubmission (s : Service) (csrPem token : String) (agentInfo : Json) :
    Except CaError (ValidatedCsr × TokenId) :=
  let token := Text.trim token
  if token = "" then .error (.token .notFound)
  else if !isAgentInfo agentInfo then
    .error (.invalidArgument "agent_info must be a JSON object")
  else
    match Csr.validate csrPem with
    | .error e => .error e
    | .ok csr =>
      if s.issuance.requireUsertype then
        match csr.identity.requireUsertype with
        | .error e => .error (.identity e)
        | .ok _ => .ok (csr, ⟨token⟩)
      else .ok (csr, ⟨token⟩)

/-- Checks a request, spends its token and enters it. -/
def submit (s : Service) (csrPem token : String) (source : IpAddress) (agentInfo : Json) :
    Procedure RequestId :=
  match s.checkSubmission csrPem token agentInfo with
  | .error e => .error e
  | .ok (csr, tokenId) => do
    let _ ← Tokens.redeem ⟨tokenId, csr.identity.commonName, source⟩ s.redeemRounds
    Ledger.submit ⟨csr.pem, csr.identity, source, tokenId, agentInfo⟩

def requestStatus (s : Service) (id : RequestId) : Procedure RequestView := do
  return (← Ledger.get id).view s.certificatePem

def renew (s : Service) (csrPem : String) (caller : CallerIdentity) : Procedure IssuedCertificate :=
  Renewal.renew s.authority s.issuance.renewalValidityDays csrPem caller

def hours (n : Nat) : Int :=
  n * Instant.secondsPerHour

/-- Issues a token, for the usual time if none is given. -/
def issueToken (s : Service) (commonName : Option String) (validityHours : Option Nat)
    (sources : Option AddressSet) (comment createdBy : String) : Procedure BootstrapToken :=
  Tokens.issue {
    commonName
    validity := hours (validityHours.getD s.tokens.defaultValidityHours)
    sources, createdBy, comment }

/-- The file for an agent, which names the configured server if no other is given. -/
def exportToken (s : Service) (id : TokenId) (format : ExportFormat) (serverUrl : Option String) :
    Procedure String :=
  Tokens.exportFile id format (serverUrl.getD s.issuance.caServerUrl)

def pruneTokens (s : Service) : Procedure Nat := do
  let now ← Procedure.now
  Tokens.prune now (hours s.tokens.pruneGraceHours)

/-- Approves a request, for the usual time if none is given. -/
def approve (s : Service) (id : RequestId) (approver : String) (days : Option Nat)
    (comment : String) : Procedure IssuedCertificate :=
  Ledger.approve s.authority.sign s.issuance.maxValidityDays
    ⟨id, approver, days.getD s.issuance.defaultValidityDays, comment⟩

def reject (_ : Service) (id : RequestId) (rejecter reason : String) : Procedure Unit :=
  Ledger.reject ⟨id, rejecter, reason⟩

def revoke (_ : Service) (serial : SerialNumber) (revokedBy : String) : Procedure Revocation :=
  if Text.isAllBlank revokedBy then .error (.invalidArgument "revoked_by must not be empty")
  else Registry.revoke serial revokedBy

end Service

end CertAuthority
