import CertAuthority.Proofs.Request.Decision
import CertAuthority.Service

/-!
# The desk of the service

Everything that agents and operators may ask for, at the same time.  Most of it leaves the requests
and the certificates alone but for entering a request; an approval, a rejection and a renewal
write more, and tell of it.
-/

namespace CertAuthority.Service

/-- What is asked of the service. -/
inductive Errand where
  | submit (csrPem token : String) (source : IpAddress) (agentInfo : Json)
  | requestStatus (id : RequestId)
  | renew (csrPem : String) (caller : CallerIdentity)
  | issueToken (commonName : Option String) (validityHours : Option Nat)
    (sources : Option AddressSet) (comment createdBy : String)
  | listTokens
  | exportToken (id : TokenId) (format : ExportFormat) (serverUrl : Option String)
  | pruneTokens
  | listPending
  | listRequests
  | getRequest (id : RequestId)
  | approve (id : RequestId) (approver : String) (days : Option Nat) (comment : String)
  | reject (id : RequestId) (rejecter reason : String)
  | listCertificates (filter : Option CertificateStatus)
  | getCertificate (serial : SerialNumber)
  | certificateStatus (serial : SerialNumber)
  | revocation (serial : SerialNumber)
  | revoke (serial : SerialNumber) (revokedBy : String)

def Errand.Result : Errand → Type
  | .submit _ _ _ _ => RequestId
  | .requestStatus _ => RequestView
  | .renew _ _ => IssuedCertificate
  | .issueToken _ _ _ _ _ => BootstrapToken
  | .listTokens => List BootstrapToken
  | .exportToken _ _ _ => String
  | .pruneTokens => Nat
  | .listPending => List CertificateRequest
  | .listRequests => List CertificateRequest
  | .getRequest _ => CertificateRequest
  | .approve _ _ _ _ => IssuedCertificate
  | .reject _ _ _ => Unit
  | .listCertificates _ => List CertificateSummary
  | .getCertificate _ => IssuedCertificate
  | .certificateStatus _ => CertificateStatus
  | .revocation _ => Option Revocation
  | .revoke _ _ => Revocation

/-- Whether an errand neither decides a request nor renews a certificate. -/
def Errand.isClerical : Errand → Bool
  | .renew _ _ | .approve _ _ _ _ | .reject _ _ _ => false
  | _ => true

def perform (s : Service) : (errand : Errand) → Procedure errand.Result
  | .submit csrPem token source agentInfo => s.submit csrPem token source agentInfo
  | .requestStatus id => s.requestStatus id
  | .renew csrPem caller => s.renew csrPem caller
  | .issueToken commonName validityHours sources comment createdBy =>
    s.issueToken commonName validityHours sources comment createdBy
  | .listTokens => Tokens.list
  | .exportToken id format serverUrl => s.exportToken id format serverUrl
  | .pruneTokens => s.pruneTokens
  | .listPending => Ledger.listPending
  | .listRequests => Ledger.list
  | .getRequest id => Ledger.get id
  | .approve id approver days comment => s.approve id approver days comment
  | .reject id rejecter reason => s.reject id rejecter reason
  | .listCertificates filter => Registry.list filter
  | .getCertificate serial => Registry.get serial
  | .certificateStatus serial => Registry.status serial
  | .revocation serial => Registry.revocation serial
  | .revoke serial revokedBy => s.revoke serial revokedBy

/-- The desk of a service. -/
def desk (s : Service) : Interface where
  Operation := Errand
  Result := Errand.Result
  procedure := s.perform

/-- The submissions that pass the checks: the subject is the identity in the request. -/
def Admitted (submission : Ledger.Submission) : Prop :=
  ∃ csr, Csr.validate submission.csrPem = .ok csr ∧ csr.identity = submission.subject

/-- The approval that is asked for. -/
def approval (s : Service) (id : RequestId) (approver : String) (days : Option Nat)
    (comment : String) : Ledger.Approval :=
  ⟨id, approver, days.getD s.issuance.defaultValidityDays, comment⟩

/-- That the service's authority has issued a certificate for a text. -/
def Signed (s : Service) (days : Nat) (issuer : CertificateIssuer) (csrPem : String)
    (issued : IssuedCertificate) : Prop :=
  ∃ now draw, Issuance.sign s.authority csrPem days issuer now draw = .ok issued

theorem quiet_sign (s : Service) (days : Nat) (issuer : CertificateIssuer) (csrPem : String) :
    (s.authority.sign csrPem days issuer).Quiet (s.Signed days issuer csrPem) :=
  s.authority.quiet_sign csrPem days issuer

/-- A validated request keeps the text it came in. -/
theorem validate_pem {csrPem : String} {csr : ValidatedCsr}
    (hvalid : Csr.validate csrPem = .ok csr) : csr.pem = csrPem := by
  unfold Csr.validate at hvalid
  split at hvalid
  · cases hvalid
  · split at hvalid
    · cases hvalid
    · cases hvalid
      rfl

/-- What a submission that passes the checks holds. -/
theorem of_checkSubmission {s : Service} {csrPem token : String} {agentInfo : Json}
    {csr : ValidatedCsr} {tokenId : TokenId}
    (hcheck : s.checkSubmission csrPem token agentInfo = .ok (csr, tokenId)) :
    Csr.validate csrPem = .ok csr ∧
      (s.issuance.requireUsertype → ∃ unit, csr.identity.requireUsertype = .ok unit) := by
  unfold checkSubmission at hcheck
  dsimp only at hcheck
  split at hcheck
  · cases hcheck
  · split at hcheck
    · cases hcheck
    · split at hcheck
      · cases hcheck
      · next found hfound =>
          split at hcheck
          · split at hcheck
            · cases hcheck
            · next unit hunit =>
                cases hcheck
                exact ⟨hfound, fun _ => ⟨unit, hunit⟩⟩
          · next hfree =>
              cases hcheck
              exact ⟨hfound, fun hrequired => absurd hrequired hfree⟩

theorem validate_of_checkSubmission {s : Service} {csrPem token : String} {agentInfo : Json}
    {csr : ValidatedCsr} {tokenId : TokenId}
    (hcheck : s.checkSubmission csrPem token agentInfo = .ok (csr, tokenId)) :
    Csr.validate csrPem = .ok csr ∧ csr.pem = csrPem := by
  have hvalid := (of_checkSubmission hcheck).1
  exact ⟨hvalid, validate_pem hvalid⟩

end CertAuthority.Service
