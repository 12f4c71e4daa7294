import CertAuthority.Proofs.Authority.Naming
import CertAuthority.Proofs.Service.Delivery

/-!
# Whose name is signed

The name on a certificate that the service issues is the one that its request gives last.  Agents
are known by the name that it gives first: that one is checked with the token, stored with the
request, and compared with the caller who renews.
-/

namespace CertAuthority.Service

open Ledger (Law Deciding Approving Grant)
open Versioned (firstRevision)

section Account

variable {task : Nat} {approval : Ledger.Approval} {signed : String → IssuedCertificate → Prop}
variable {calls : List Event} {rest : Procedure IssuedCertificate}

/-- An approval that succeeded has changed its request, to one that was granted. -/
theorem grant_of_ok {issued : IssuedCertificate}
    (hdeciding : Deciding task approval.requestId (Approving task approval signed) calls rest)
    (hended : rest.outcome? = some (.ok issued)) :
    ∃ r decided, Grant approval signed r decided issued ∧
      .change task .requests approval.requestId.text decided firstRevision ∈ calls := by
  obtain rfl := Procedure.eq_done_of_outcome? hended
  cases hdeciding with
  | unread hfruitless => exact hfruitless.elim
  | unreadable e hends => cases hends.outcome_eq hended
  | unknown hends => cases hends.outcome_eq hended
  | late hterminal hends => cases hends.outcome_eq hended
  | considered hpending hfruitless => exact hfruitless.elim
  | refused e hpending hends => cases hends.outcome_eq hended
  | accepted hpending hcompleted =>
      cases hcompleted with
      | unrecorded hgrant hgoing => exact hgoing.elim
      | recorded hgrant hends =>
          cases hends.outcome_eq hended
          exact ⟨_, _, hgrant, List.mem_cons_of_mem _ List.mem_cons_self⟩
      | unrecordable e hgrant hends => cases hends.outcome_eq hended

end Account

section Run

variable {s : Service} {stores : Stores} {o : Office s.desk} {id : RequestId} {i : Nat}

/-- A request that was changed is there, with the subject for which its text was validated. -/
theorem validated_of_change {w : World} (hlaw : Law Admitted w) {decided : CertificateRequest}
    (hchange : .change i .requests id.text decided firstRevision ∈ w.log) :
    (∃ revision, w.find? .requests id.text = some ⟨decided, revision⟩) ∧
      ∃ csr, Csr.validate decided.csrPem = .ok csr ∧ csr.identity = decided.subject := by
  have hkey := hlaw.1 id.text
  have hmem : .change i .requests id.text decided firstRevision ∈ w.writes .requests id.text :=
    List.mem_filter.mpr ⟨hchange, by simp⟩
  generalize w.writes .requests id.text = writes at hkey hmem
  generalize w.find? .requests id.text = held? at hkey ⊢
  cases hkey with
  | absent => cases hmem
  | pending clerk hfiled => cases List.mem_singleton.mp hmem
  | decided clerk judge hfiled hdecision =>
      rcases List.mem_cons.mp hmem with hfirst | hsecond
      · cases hfirst
      · cases List.mem_singleton.mp hsecond
        refine ⟨⟨_, rfl⟩, ?_⟩
        obtain ⟨submission, _, _, ⟨csr, hvalid, hidentity⟩, -, rfl⟩ := hfiled
        have hsubmitted := hdecision.submitted
        simp only [CertificateRequest.submitted, Prod.mk.injEq,
          Ledger.Submission.mk.injEq] at hsubmitted
        obtain ⟨-, ⟨hpem, hsubject, -, -, -⟩, -⟩ := hsubmitted
        rw [hpem, hsubject]
        exact ⟨csr, hvalid, hidentity⟩

theorem bears_of_approved (habides : o.Abides (Law Admitted) stores s.promise) {approver : String}
    {days : Option Nat} {comment : String} {issued : IssuedCertificate}
    (hended : o.Ended i (.approve id approver days comment) (.ok issued)) :
    ∃ entry, o.world.find? .requests id.text = some entry ∧
      Bears entry.value.csrPem issued entry.value.subject.commonName := by
  obtain ⟨rest, htask, houtcome⟩ := hended
  obtain ⟨r, decided, hgrant, hchange⟩ :=
    grant_of_ok (deciding_of_approve habides htask) houtcome
  obtain ⟨⟨revision, hfind⟩, csr, hvalid, hidentity⟩ :=
    validated_of_change habides.lawful (World.mem_log_of_mem_calls hchange)
  refine ⟨_, hfind, ?_⟩
  obtain ⟨now, happroved⟩ := hgrant.marked
  obtain ⟨signedAt, draw, hsigned⟩ := hgrant.signed
  have hpem : decided.csrPem = r.csrPem := by rw [(CertificateRequest.markApproved_eq happroved).2]
  rw [← hpem] at hsigned
  have hbears := bears_of_sign hvalid hsigned
  rwa [hidentity] at hbears

theorem bears_of_renewed (habides : o.Abides (Law Admitted) stores s.promise) {csrPem : String}
    {caller : CallerIdentity} {issued : IssuedCertificate}
    (hended : o.Ended i (.renew csrPem caller) (.ok issued)) :
    Bears csrPem issued caller.commonName := by
  obtain ⟨rest, htask, houtcome⟩ := hended
  have hrenewing : Renewing s i csrPem caller (o.world.calls i) rest :=
    (habides.tasks i (.renew csrPem caller) rest htask).promised
  obtain ⟨⟨csr, hvalid, hcaller⟩, ⟨now, draw, hsigned⟩, -⟩ :=
    hrenewing.issued issued (Procedure.eq_done_of_outcome? houtcome)
  rw [hcaller]
  exact bears_of_sign hvalid hsigned

/-- What is certain of the names on the certificates, after any moves. -/
structure Naming (s : Service) (stores : Stores) (moves : List (Move s.desk)) : Prop where
  /-- Of a request that was validated, and a certificate that was signed for it. -/
  signed : ∀ csrPem csr days issuer now draw issued, Csr.validate csrPem = .ok csr →
    Issuance.sign s.authority csrPem days issuer now draw = .ok issued →
      Bears csrPem issued csr.identity.commonName
  /-- Of a request that was approved. -/
  approved : ∀ i (id : RequestId) approver days comment issued,
    (Office.run stores moves).Ended i (.approve id approver days comment) (.ok issued) →
      ∃ entry, (Office.run stores moves).world.find? .requests id.text = some entry ∧
        Bears entry.value.csrPem issued entry.value.subject.commonName
  /-- Of a caller whose certificate was renewed. -/
  renewed : ∀ i csrPem (caller : CallerIdentity) issued,
    (Office.run stores moves).Ended i (.renew csrPem caller) (.ok issued) →
      Bears csrPem issued caller.commonName

/-- A certificate bears the name of the agent for whom it was issued if and only if that is the name
that the request gives last; so it is if the request gives one name only. -/
theorem naming (s : Service) (stores : Stores) (moves : List (Move s.desk)) :
    Naming s stores moves where
  signed := by
    intro csrPem csr days issuer now draw issued hvalid hsigned
    exact bears_of_sign hvalid hsigned
  approved := by
    intro i id approver days comment issued hended
    exact bears_of_approved (abides s stores moves) hended
  renewed := by
    intro i csrPem caller issued hended
    exact bears_of_renewed (abides s stores moves) hended

end Run

end CertAuthority.Service
