import CertAuthority.Proofs.Authority.Acceptance
import CertAuthority.Proofs.Request.Heeding
import CertAuthority.Proofs.Service.Writes

/-!
# Submissions that file a request

A submission enters a request if and only if it ends well, as the last thing that it does; no other
errand enters one.  And whatever the errand, a host that keeps the requests may be asked for it.
-/

namespace CertAuthority

/-- Only the requests hold requests. -/
theorem Effect.filed?_of_not_writesTo {e : Effect} (he : e.writesTo .requests = false)
    (reply : e.Reply) : e.filed? reply = none := by
  unfold Effect.filed?
  split
  · cases he
  · rfl

namespace Procedure

variable {β : Type} {fresh : RequestId → CertificateRequest → Prop}

/-- Enters a request if and only if it ends well, as the last thing that it does. -/
def Files (fresh : RequestId → CertificateRequest → Prop) : Procedure RequestId → Prop
  | .done _ => False
  | .fail _ => True
  | .call e next =>
    (∀ reply key r, e.filed? reply = some (key, r) →
      ∃ id : RequestId, id.text = key ∧ fresh id r ∧ next reply = .done id) ∧
        ∀ reply, e.filed? reply = none → Files fresh (next reply)

/-- An effect that enters no request. -/
theorem files_call {e : Effect} (he : ∀ reply, e.filed? reply = none)
    {next : e.Reply → Procedure RequestId} (hnext : ∀ reply, (next reply).Files fresh) :
    (Procedure.call e next).Files fresh := by
  refine ⟨fun reply key r hfiled => ?_, fun reply _ => hnext reply⟩
  rw [he reply] at hfiled
  cases hfiled

/-- What comes before may have effects that enter no request. -/
theorem Only.files_bind {p : Procedure β} (hp : p.Only fun e => ∀ reply, e.filed? reply = none)
    {f : β → Procedure RequestId} (hf : ∀ b, (f b).Files fresh) : (p.bind f).Files fresh := by
  induction p with
  | done b => exact hf b
  | fail e => trivial
  | call e next ih => exact files_call hp.1 fun reply => ih reply (hp.2 reply)

end Procedure

/-- Redeeming a token leaves the requests alone. -/
theorem Tokens.redeem_elsewhere (redemption : Tokens.Redemption) (rounds : Nat) :
    (Tokens.redeem redemption rounds).Only fun e => e.writesTo .requests = false := by
  have hasks : (Tokens.redeem redemption rounds).Asks fun e => e.writesTo .requests = false :=
    Tokens.redeem_asks (fun _ _ _ => rfl) rounds
  exact hasks.mono fun e he =>
    he.elim (fun hquiet => Effect.not_writesTo_of_not_asksWrite hquiet _) fun helsewhere => helsewhere

namespace Ledger

theorem submitFrom_files {submission : Submission} {fresh : RequestId → CertificateRequest → Prop}
    (hfresh : ∀ id now, fresh id (submission.entry id now)) (attempts : Nat) :
    (submitFrom submission attempts).Files fresh := by
  induction attempts with
  | zero => trivial
  | succ attempts ih =>
      refine Procedure.files_call (Effect.filed?_of_not_writesTo rfl) fun now =>
        Procedure.files_call (Effect.filed?_of_not_writesTo rfl) fun tail => ?_
      refine ⟨fun reply key r hfiled => ?_, fun reply hfiled => ?_⟩
      · cases reply with
        | error e => cases hfiled
        | ok revision =>
            cases hfiled
            exact ⟨_, rfl, hfresh _ now, rfl⟩
      · unfold entered
        split
        · cases hfiled
        · exact ih
        · trivial

end Ledger

namespace Service

/-- That a request is the one that was submitted. -/
structure Brings (csrPem : String) (source : IpAddress) (agentInfo : Json) (id : RequestId)
    (r : CertificateRequest) : Prop where
  requestId : r.requestId = id
  csrPem : r.csrPem = csrPem
  sourceIp : r.sourceIp = source
  agentInfo : r.agentInfo = agentInfo
  pending : r.status = .pendingApproval

variable (s : Service)

theorem submit_files (csrPem token : String) (source : IpAddress) (agentInfo : Json) :
    (s.submit csrPem token source agentInfo).Files (Brings csrPem source agentInfo) := by
  unfold submit
  split
  · trivial
  · next csr tokenId hcheck =>
      have hpem := (validate_of_checkSubmission hcheck).2
      have hspend := Tokens.redeem_elsewhere ⟨tokenId, csr.identity.commonName, source⟩ s.redeemRounds
      exact Procedure.Only.files_bind (hspend.mono fun e => Effect.filed?_of_not_writesTo) fun _ =>
        Ledger.submitFrom_files (fun id now => ⟨rfl, hpem, rfl, rfl, rfl⟩) Ledger.maxAttempts

/-- Whether an errand submits a request. -/
def Errand.isSubmission : Errand → Bool
  | .submit _ _ _ _ => true
  | _ => false

/-- Only a submission enters requests. -/
theorem perform_enters_none (errand : Errand) (herrand : errand.isSubmission = false) :
    (s.perform errand).Only fun e => ∀ reply, e.filed? reply = none := by
  refine (perform_writes s errand).mono fun e he reply => he.elim (fun hquiet => ?_) fun hwrites => ?_
  · exact Effect.filed?_of_not_writesTo (Effect.not_writesTo_of_not_asksWrite hquiet _) reply
  · cases hwrites <;> first | rfl | cases herrand

/-- Whether an errand may write to the requests. -/
def Errand.isOfRequests : Errand → Bool
  | .submit _ _ _ _ | .approve _ _ _ _ | .reject _ _ _ => true
  | _ => false

theorem perform_elsewhere (errand : Errand) (herrand : errand.isOfRequests = false) :
    (s.perform errand).Only fun e => e.writesTo .requests = false := by
  refine (perform_writes s errand).mono fun e he => he.elim (fun hquiet => ?_) fun hwrites => ?_
  · exact Effect.not_writesTo_of_not_asksWrite hquiet _
  · cases hwrites <;> first | rfl | cases herrand

/-- A certificate that is signed by a clock that shows instants ends at an instant. -/
theorem sign_heeds (days : Nat) (issuer : CertificateIssuer) (csrPem : String) :
    (s.authority.sign csrPem days issuer).Heeds Ledger.Told Ledger.Asked
      fun issued => issued.expiresAt.IsValid := by
  refine ⟨trivial, fun now hnow => ⟨trivial, fun serial _ => ⟨trivial, fun nonce _ => ?_⟩⟩⟩
  change (Authority.ofTask _).Heeds _ _ _
  generalize Issuance.Draw.mk _ _ = draw
  cases hissued : Issuance.sign s.authority csrPem days issuer now draw with
  | ok issued =>
      have hexpires := Issuance.expires_of_sign hissued
      rw [Issuance.issuedAt_of_sign hissued] at hexpires
      exact Instant.IsValid.addSeconds? hnow hexpires
  | error f => cases f <;> trivial

/-- What an agent tells of itself is a value, and all numbers in it are integers. -/
def Errand.IsProper : Errand → Prop
  | .submit _ _ _ agentInfo => agentInfo.IsValue ∧ agentInfo.IsIntegral
  | _ => True

theorem submit_heeds (csrPem token : String) (source : IpAddress) {agentInfo : Json}
    (hvalue : agentInfo.IsValue) (hintegral : agentInfo.IsIntegral) :
    (s.submit csrPem token source agentInfo).Heeds Ledger.Told Ledger.Asked fun _ => True := by
  unfold submit
  split
  · trivial
  · next csr tokenId hcheck =>
      have hspend := Tokens.redeem_elsewhere ⟨tokenId, csr.identity.commonName, source⟩ s.redeemRounds
      exact (hspend.heeds fun e => Ledger.asked_of_not_writesTo).bind fun _ _ =>
        Ledger.submitFrom_heeds hvalue hintegral Ledger.maxAttempts

/-- An errand asks for nothing but what a host that keeps the requests may be asked. -/
theorem perform_heeds (errand : Errand) (hproper : errand.IsProper) :
    (s.perform errand).Heeds Ledger.Told Ledger.Asked fun _ => True := by
  cases herrand : errand.isOfRequests with
  | false =>
      exact (perform_elsewhere s errand herrand).heeds fun e => Ledger.asked_of_not_writesTo
  | true =>
      cases errand with
      | submit csrPem token source agentInfo => exact submit_heeds s _ _ _ hproper.1 hproper.2
      | approve id approver days comment =>
          exact Ledger.approve_heeds fun csrPem => sign_heeds s _ _ csrPem
      | reject id rejecter reason => exact Ledger.reject_heeds _
      | _ => cases herrand

end Service

end CertAuthority
