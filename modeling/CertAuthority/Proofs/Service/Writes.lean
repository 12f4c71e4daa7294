import CertAuthority.Proofs.Certificate.Register
import CertAuthority.Proofs.Service.Desk
import CertAuthority.Proofs.Token.Writes
import CertAuthority.Request.Ledger

/-!
# What is written, and why

Each operation asks for certain writes only, whatever it is replied.
-/

/-! ## What is written to the requests

A request is entered as it was submitted, and changed by the decision that was asked for.
-/

namespace CertAuthority.Ledger

open Effect (among_of_not_asksWrite among_of_writes)
open Procedure (asks_now asks_reading asks_query asks_ofExcept)

variable {writes : Effect → Prop}

theorem submitFrom_asks {submission : Submission}
    (hfile : ∀ id now, writes (.table .requests (.create id.text (submission.entry id now))))
    (attempts : Nat) : (submitFrom submission attempts).Asks writes := by
  induction attempts with
  | zero => trivial
  | succ attempts ih =>
      refine ⟨among_of_not_asksWrite rfl writes, fun now =>
        ⟨among_of_not_asksWrite rfl writes, fun tail =>
          ⟨among_of_writes (hfile _ now), fun reply => ?_⟩⟩⟩
      unfold entered
      split
      · trivial
      · exact ih
      · trivial

theorem find_asks (id : RequestId) : (find id).Asks writes :=
  (asks_reading rfl writes).bind fun entry => by cases entry <;> trivial

theorem get_asks (id : RequestId) : (get id).Asks writes :=
  (find_asks id).bind fun _ => trivial

theorem approve_asks {sign : Signer} {maxDays : Nat} {approval : Approval}
    {signed : String → IssuedCertificate → Prop}
    (hsign : ∀ csrPem,
      (sign csrPem approval.days (.request approval.requestId)).Quiet (signed csrPem))
    (hdecide : ∀ decided revision,
      writes (.table .requests (.update approval.requestId.text decided revision)))
    (hrecord : approval.check maxDays = .ok () → ∀ csrPem issued, signed csrPem issued →
      writes (.table .certificates (.create issued.serialNumber.text issued))) :
    (approve sign maxDays approval).Asks writes := by
  unfold approve
  split
  · trivial
  · next hcheck =>
      refine ⟨among_of_not_asksWrite rfl writes, fun _ => Procedure.Only.ensuring ?_
        (among_of_not_asksWrite rfl writes)⟩
      refine (find_asks _).bind fun current => (asks_ofExcept writes _).bind fun _ =>
        (hsign _).asks_bind fun issued hsigned => ?_
      refine (asks_now writes).bind fun now => (asks_ofExcept writes _).bind fun decided => ?_
      exact (asks_query (among_of_writes (hdecide _ _))).bind fun _ =>
        (Registry.record_asks (hrecord hcheck _ _ hsigned)).bind fun _ => trivial

theorem reject_asks {rejection : Rejection}
    (hdecide : ∀ decided revision,
      writes (.table .requests (.update rejection.requestId.text decided revision))) :
    (reject rejection).Asks writes := by
  unfold reject
  split
  · trivial
  · refine ⟨among_of_not_asksWrite rfl writes, fun _ => Procedure.Only.ensuring ?_
      (among_of_not_asksWrite rfl writes)⟩
    exact (find_asks _).bind fun current => (asks_now writes).bind fun now =>
      (asks_ofExcept writes _).bind fun decided =>
        (asks_query (among_of_writes (hdecide _ _))).bind fun _ => trivial

end CertAuthority.Ledger

/-! ## What each errand writes

Every errand has its own kinds of writes, and asks for no others, whatever it is replied.  A
submission marks a token as used only after that token, as it was read, has passed the checks; an
approval and a renewal enter certificates that were signed for them; most errands write nothing.
-/

namespace CertAuthority.Service

/-- The writes that an errand may ask for. -/
inductive Writes (s : Service) : Errand → Effect → Prop where
  /-- A token that may be redeemed is marked as used. -/
  | spent {csrPem token : String} {source : IpAddress} {agentInfo : Json} {csr : ValidatedCsr}
    {tokenId : TokenId} {read : Versioned BootstrapToken} {now : Instant}
    (hcheck : s.checkSubmission csrPem token agentInfo = .ok (csr, tokenId))
    (hredeemable : read.value.checkRedeemable now csr.identity.commonName source = .ok ()) :
    Writes s (.submit csrPem token source agentInfo) (.table .tokens (.update tokenId.text
      (read.value.markUsed now csr.identity.commonName source) read.revision))
  | filed {csrPem token : String} {source : IpAddress} {agentInfo : Json} {csr : ValidatedCsr}
    {tokenId : TokenId} (id : RequestId) (now : Instant)
    (hcheck : s.checkSubmission csrPem token agentInfo = .ok (csr, tokenId)) :
    Writes s (.submit csrPem token source agentInfo) (.table .requests (.create id.text
      (Ledger.Submission.entry ⟨csr.pem, csr.identity, source, tokenId, agentInfo⟩ id now)))
  | renewed {csrPem : String} {caller : CallerIdentity} {issued : IssuedCertificate}
    (hsigned : s.Signed s.issuance.renewalValidityDays .autoRenewal csrPem issued) :
    Writes s (.renew csrPem caller)
      (.table .certificates (.create issued.serialNumber.text issued))
  | issued {commonName : Option String} {validityHours : Option Nat}
    {sources : Option AddressSet} {comment createdBy : String} {token : BootstrapToken}
    (hunused : token.isUsed = false) :
    Writes s (.issueToken commonName validityHours sources comment createdBy)
      (.table .tokens (.create token.tokenId.text token))
  | pruned (key : String) (revision : Nat) :
    Writes s .pruneTokens (.table .tokens (.delete key revision))
  | approved {id : RequestId} {approver : String} {days : Option Nat} {comment : String}
    (decided : CertificateRequest) (revision : Nat) :
    Writes s (.approve id approver days comment)
      (.table .requests (.update id.text decided revision))
  /-- The certificate of an approval, which was asked for a number of days that is allowed. -/
  | granted {id : RequestId} {approver : String} {days : Option Nat} {comment csrPem : String}
    {issued : IssuedCertificate}
    (hcheck : (s.approval id approver days comment).check s.issuance.maxValidityDays = .ok ())
    (hsigned : s.Signed (s.approval id approver days comment).days (.request id) csrPem issued) :
    Writes s (.approve id approver days comment)
      (.table .certificates (.create issued.serialNumber.text issued))
  | rejected {id : RequestId} {rejecter reason : String} (decided : CertificateRequest)
    (revision : Nat) :
    Writes s (.reject id rejecter reason) (.table .requests (.update id.text decided revision))
  | revoked {serial : SerialNumber} {revokedBy : String} (now : Instant) :
    Writes s (.revoke serial revokedBy)
      (.table .revocations (.create serial.text ⟨serial, now, revokedBy⟩))

theorem checkRevocation_asks {writes : Effect → Prop} (caller : CallerIdentity) :
    (Renewal.checkRevocation caller).Asks writes := by
  unfold Renewal.checkRevocation
  split
  · trivial
  · exact (Registry.isRevoked_asks _).bind fun revoked => by cases revoked <;> trivial

variable (s : Service)

theorem submit_writes (csrPem token : String) (source : IpAddress) (agentInfo : Json) :
    (s.submit csrPem token source agentInfo).Asks
      (s.Writes (.submit csrPem token source agentInfo)) := by
  unfold submit
  split
  · trivial
  · next csr tokenId hcheck =>
      exact (Tokens.redeem_asks (fun _ _ hredeemable => .spent hcheck hredeemable) _).bind fun _ =>
        Ledger.submitFrom_asks (fun id now => .filed id now hcheck) Ledger.maxAttempts

theorem renew_writes (csrPem : String) (caller : CallerIdentity) :
    (s.renew csrPem caller).Asks (s.Writes (.renew csrPem caller)) := by
  unfold renew Renewal.renew
  split
  · trivial
  · next csr hvalid =>
      split
      · trivial
      · refine (checkRevocation_asks caller).bind fun _ =>
          (quiet_sign s _ _ _).asks_bind fun issued hsigned => ?_
        rw [validate_pem hvalid] at hsigned
        exact (Registry.record_asks (.renewed hsigned)).bind fun _ => trivial

theorem revoke_writes (serial : SerialNumber) (revokedBy : String) :
    (s.revoke serial revokedBy).Asks (s.Writes (.revoke serial revokedBy)) := by
  unfold revoke
  split
  · trivial
  · exact Registry.revoke_asks fun now => .revoked now

/-- An errand asks for its own writes only. -/
theorem perform_writes (errand : Errand) : (s.perform errand).Asks (s.Writes errand) := by
  cases errand with
  | submit csrPem token source agentInfo => exact submit_writes s csrPem token source agentInfo
  | requestStatus id => exact (Ledger.get_asks id).bind fun _ => trivial
  | renew csrPem caller => exact renew_writes s csrPem caller
  | issueToken commonName validityHours sources comment createdBy =>
      exact Tokens.issue_asks (fun token hunused => .issued hunused) _
  | listTokens => exact (Procedure.asks_reading rfl _).bind fun _ => trivial
  | exportToken id format serverUrl => exact (Tokens.get_asks id).bind fun _ => trivial
  | pruneTokens =>
      refine (Procedure.asks_now _).bind fun now => ?_
      exact (Procedure.asks_reading rfl _).bind fun entries =>
        Tokens.pruneEntries_asks (fun key revision => .pruned key revision) _ _ _ _
  | listPending => exact (Procedure.asks_reading rfl _).bind fun _ => trivial
  | listRequests => exact (Procedure.asks_reading rfl _).bind fun _ => trivial
  | getRequest id => exact Ledger.get_asks id
  | approve id approver days comment =>
      exact Ledger.approve_asks (fun csrPem => quiet_sign s _ _ csrPem)
        (fun decided revision => .approved decided revision)
        (fun hcheck csrPem issued hsigned => .granted hcheck hsigned)
  | reject id rejecter reason =>
      exact Ledger.reject_asks fun decided revision => .rejected decided revision
  | listCertificates filter => exact Registry.list_asks filter
  | getCertificate serial => exact Registry.get_asks serial
  | certificateStatus serial => exact Registry.status_asks serial
  | revocation serial => exact Registry.revocation_asks serial
  | revoke serial revokedBy => exact revoke_writes s serial revokedBy

variable {s}

/-- Whoever has asked for a write had an errand that may ask for it. -/
theorem writes_of_mem {stores : Stores} {moves : List (Move s.desk)} {event : Event}
    (hevent : event ∈ (Office.run stores moves).world.log) (hasks : event.effect.asksWrite) :
    ∃ (errand : Errand) (rest : Procedure errand.Result),
      (Office.run stores moves).tasks[event.task]? = some ⟨errand, rest⟩ ∧
        s.Writes errand event.effect := by
  obtain ⟨errand, rest, htask, hamong⟩ := Office.allowed_of_mem (perform_writes s) hevent
  exact ⟨errand, rest, htask, hamong hasks⟩

/-- The writes of an errand that decides nothing and renews nothing are clerical. -/
theorem Writes.clerical {errand : Errand} {e : Effect} (hwrites : s.Writes errand e)
    (herrand : errand.isClerical) : Ledger.Clerical Admitted e := by
  cases hwrites with
  | spent hcheck hredeemable => exact .inl ⟨rfl, rfl⟩
  | filed id now hcheck =>
      obtain ⟨hvalid, hpem⟩ := validate_of_checkSubmission hcheck
      refine .inr ⟨_, id, now, ⟨_, ?_, rfl⟩, rfl⟩
      rw [hpem]
      exact hvalid
  | issued hunused => exact .inl ⟨rfl, rfl⟩
  | pruned key revision => exact .inl ⟨rfl, rfl⟩
  | revoked now => exact .inl ⟨rfl, rfl⟩
  | _ => cases herrand

/-- All errands but approvals, rejections and renewals are clerical. -/
theorem perform_clerical (errand : Errand) (herrand : errand.isClerical) :
    (s.perform errand).Only (Ledger.Clerical Admitted) := by
  refine (perform_writes s errand).mono fun e he =>
    he.elim (fun hquiet => .inl ?_) fun hwrites => hwrites.clerical herrand
  exact ⟨Effect.not_writesTo_of_not_asksWrite hquiet _,
    Effect.not_writesTo_of_not_asksWrite hquiet _⟩

end CertAuthority.Service
