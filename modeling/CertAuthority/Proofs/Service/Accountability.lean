import CertAuthority.Proofs.Service.Issuing

/-!
# Certificates are accounted for

Every certificate that is entered was entered by a renewal or by an approval.  An approval has
decided its request before, and its decision stands; so the request that a certificate names is
approved and holds that certificate, and no other certificate names it.  Both ways of issuing keep
to the policy on how long certificates are valid.
-/

namespace CertAuthority

/-- The usual days and those of a renewal are among those that a valid configuration allows. -/
theorem Config.days_of_isValid {c : Config} (hvalid : c.isValid) :
    (0 < c.issuance.defaultValidityDays ∧
      c.issuance.defaultValidityDays ≤ c.issuance.maxValidityDays) ∧
    0 < c.issuance.renewalValidityDays ∧
      c.issuance.renewalValidityDays ≤ c.issuance.maxValidityDays := by
  have hnone : c.fault? = none := Option.isNone_iff_eq_none.mp hvalid
  simp only [fault?, ite_eq_iff, reduceCtorEq, and_false, false_or] at hnone
  omega

/-- An approval that passes its check is for a number of days that is allowed. -/
theorem Ledger.Approval.days_of_check {approval : Approval} {maxDays : Nat}
    (hcheck : approval.check maxDays = .ok ()) : 0 < approval.days ∧ approval.days ≤ maxDays := by
  unfold check at hcheck
  split at hcheck
  · cases hcheck
  · split at hcheck
    · cases hcheck
    · omega

namespace Service

open Ledger (Law Deciding Approving Grant reading)
open Versioned (firstRevision)

/-- That a request is approved and holds a certificate. -/
structure Holds (r : CertificateRequest) (issued : IssuedCertificate) : Prop where
  approved : r.status = .approved
  serial : r.serialNumber = some issued.serialNumber
  pem : r.certificatePem = some issued.certificatePem
  expires : r.expiresAt = some issued.expiresAt

theorem holds_of_markApproved {r decided : CertificateRequest} {issued : IssuedCertificate}
    {approver comment : String} {now : Instant}
    (happroved : r.markApproved issued approver comment now = .ok decided) :
    Holds decided issued := by
  rw [(CertificateRequest.markApproved_eq happroved).2]
  exact ⟨rfl, rfl, rfl, rfl⟩

section Account

variable {task : Nat} {approval : Ledger.Approval} {signed : String → IssuedCertificate → Prop}
variable {calls : List Event} {rest : Procedure IssuedCertificate}

/-- An approval that has entered a certificate has changed its request to hold it, and enters no
other. -/
theorem grant_of_creation
    (hdeciding : Deciding task approval.requestId (Approving task approval signed) calls rest)
    {key : String} {issued : IssuedCertificate}
    (hcreation : .creation task .certificates key issued ∈ calls) :
    ∃ r decided, Grant approval signed r decided issued ∧
      .change task .requests approval.requestId.text decided firstRevision ∈ calls ∧
      ∀ other found, .creation task .certificates other found ∈ calls → other = key := by
  have hwrite : .creation task .certificates key issued ∈ calls.filter (·.isWrite) :=
    List.mem_filter.mpr ⟨hcreation, rfl⟩
  obtain ⟨decided, hchange⟩ := hdeciding.changed_of_write (List.ne_nil_of_mem hwrite)
  obtain ⟨current, later, happroving, rfl⟩ :=
    hdeciding.completed_of_change (Approving.aside task approval signed) hchange
  have hlater {other : String} {found : IssuedCertificate}
      (hmem : .creation task .certificates other found ∈
        reading task approval.requestId (.ok (some current)) ::
          .change task .requests approval.requestId.text decided firstRevision :: later) :
      .creation task .certificates other found ∈ later := by
    rcases List.mem_cons.mp hmem with hread | hmore
    · cases hread
    · rcases List.mem_cons.mp hmore with hchanged | hlater
      · cases hchanged
      · exact hlater
  have hlast := hlater hcreation
  -- What follows the change is nothing, or one attempt to enter the certificate that was signed.
  cases happroving with
  | unrecorded hgrant hgoing => cases hlast
  | recorded hgrant hends =>
      cases List.mem_singleton.mp hlast
      refine ⟨_, decided, hgrant, hchange, fun other found hother => ?_⟩
      cases List.mem_singleton.mp (hlater hother)
      rfl
  | unrecordable e hgrant hends => cases List.mem_singleton.mp hlast

end Account

section Run

variable {s : Service} {stores : Stores} {moves : List (Move s.desk)} {key : String}

/-- How a certificate came to be entered: by a renewal, or by the approval of its request. -/
inductive Provenance {s : Service} (o : Office s.desk) (key : String)
    (issued : IssuedCertificate) : Prop where
  | renewed {csrPem : String}
    (hsigned : s.Signed s.issuance.renewalValidityDays .autoRenewal csrPem issued)
  | granted {i : Nat} {id : RequestId} {approver : String} {days : Option Nat}
    {comment csrPem : String} {rest : Procedure IssuedCertificate}
    (htask : o.tasks[i]? = some ⟨.approve id approver days comment, rest⟩)
    (hcreation : .creation i .certificates key issued ∈ o.world.log)
    (hcheck : (s.approval id approver days comment).check s.issuance.maxValidityDays = .ok ())
    (hsigned : s.Signed (s.approval id approver days comment).days (.request id) csrPem issued)

theorem provenance_of_find {entry : Versioned IssuedCertificate}
    (hfind : (Office.run stores moves).world.find? .certificates key = some entry) :
    Provenance (Office.run stores moves) key entry.value := by
  obtain ⟨-, -, i, hcreation⟩ :=
    (abides s stores moves).lawful.certificates.creation_of_find hfind
  obtain ⟨errand, rest, htask, hwrites⟩ := writes_of_mem hcreation rfl
  generalize entry.value = issued at hcreation hwrites ⊢
  cases hwrites with
  | renewed hsigned => exact .renewed hsigned
  | granted hcheck hsigned => exact .granted htask hcreation hcheck hsigned

theorem issuer_of_signed {days : Nat} {issuer : CertificateIssuer} {csrPem : String}
    {issued : IssuedCertificate} (hsigned : s.Signed days issuer csrPem issued) :
    issued.issuer = issuer := by
  obtain ⟨now, draw, hsigned⟩ := hsigned
  exact Issuance.issuer_of_sign hsigned

theorem lasts_of_signed {days : Nat} (hdays : 0 < days) {issuer : CertificateIssuer}
    {csrPem : String} {issued : IssuedCertificate} (hsigned : s.Signed days issuer csrPem issued) :
    issued.Lasts days := by
  obtain ⟨now, draw, hsigned⟩ := hsigned
  exact Issuance.lasts_of_sign hdays hsigned

/-- A certificate that names a request was entered by an approval of it, which has changed it. -/
theorem granted_of_issuer {id : RequestId} {entry : Versioned IssuedCertificate}
    (hfind : (Office.run stores moves).world.find? .certificates key = some entry)
    (hissuer : entry.value.issuer = .request id) :
    ∃ i decided, .creation i .certificates key entry.value ∈ (Office.run stores moves).world.log ∧
      .change i .requests id.text decided firstRevision ∈ (Office.run stores moves).world.log ∧
      Holds decided entry.value ∧
      ∀ other found, .creation i .certificates other found ∈ (Office.run stores moves).world.log →
        other = key := by
  cases provenance_of_find hfind with
  | renewed hsigned =>
      rw [issuer_of_signed hsigned] at hissuer
      cases hissuer
  | @granted i found approver days comment csrPem rest htask hcreation hcheck hsigned =>
      rw [issuer_of_signed hsigned] at hissuer
      cases hissuer
      have hcall {other : String} {issued : IssuedCertificate}
          (hmem : .creation i .certificates other issued ∈ (Office.run stores moves).world.log) :
          .creation i .certificates other issued ∈ (Office.run stores moves).world.calls i :=
        World.mem_calls_iff.mpr ⟨World.mem_past_iff.mpr ⟨hmem, rfl⟩, rfl⟩
      obtain ⟨r, decided, hgrant, hchange, honly⟩ :=
        grant_of_creation (deciding_of_approve (abides s stores moves) htask) (hcall hcreation)
      obtain ⟨now, happroved⟩ := hgrant.marked
      exact ⟨i, decided, hcreation, World.mem_log_of_mem_calls hchange,
        holds_of_markApproved happroved, fun other issued hmem => honly other issued (hcall hmem)⟩

/-- How a certificate that is entered is accounted for. -/
structure Accounted (w : World) (key : String) (issued : IssuedCertificate) : Prop where
  /-- It is entered under its own serial number. -/
  own : issued.serialNumber.text = key
  /-- The request that it names is approved and holds it. -/
  approved : ∀ id : RequestId, issued.issuer = .request id →
    ∃ entry, w.find? .requests id.text = some entry ∧ Holds entry.value issued

/-- That a certificate is valid for as long as a policy says. -/
structure WithinPolicy (policy : IssuancePolicy) (issued : IssuedCertificate) : Prop where
  /-- It is valid for a number of whole days that the policy allows. -/
  lasts : ∃ days, 1 ≤ days ∧ days ≤ policy.maxValidityDays ∧ issued.Lasts days
  /-- Renewals last as long as the policy says. -/
  renewed : issued.issuer = .autoRenewal → issued.Lasts policy.renewalValidityDays

theorem accounted_of_find {entry : Versioned IssuedCertificate}
    (hfind : (Office.run stores moves).world.find? .certificates key = some entry) :
    Accounted (Office.run stores moves).world key entry.value where
  own := ((abides s stores moves).lawful.certificates.creation_of_find hfind).1
  approved := by
    intro id hissuer
    obtain ⟨i, decided, -, hchange, hholds, -⟩ := granted_of_issuer hfind hissuer
    obtain ⟨⟨revision, hrequest⟩, -⟩ := validated_of_change (abides s stores moves).lawful hchange
    exact ⟨_, hrequest, hholds⟩

/-- Under a configuration that keeps its rules all certificates are valid as long as it says. -/
theorem withinPolicy_of_find {c : Config} (hvalid : c.isValid) (hpolicy : s.issuance = c.issuance)
    {entry : Versioned IssuedCertificate}
    (hfind : (Office.run stores moves).world.find? .certificates key = some entry) :
    WithinPolicy c.issuance entry.value := by
  obtain ⟨-, hpositive, hallowed⟩ := Config.days_of_isValid hvalid
  rw [← hpolicy] at hpositive hallowed ⊢
  cases provenance_of_find hfind with
  | renewed hsigned =>
      have hlasts := lasts_of_signed hpositive hsigned
      exact ⟨⟨_, hpositive, hallowed, hlasts⟩, fun _ => hlasts⟩
  | granted htask hcreation hcheck hsigned =>
      obtain ⟨hdays, hmax⟩ := Ledger.Approval.days_of_check hcheck
      refine ⟨⟨_, hdays, hmax, lasts_of_signed hdays hsigned⟩, fun hissuer => ?_⟩
      rw [issuer_of_signed hsigned] at hissuer
      cases hissuer

/-- Two certificates that name one request are one. -/
theorem eq_of_issuer {other : String} {id : RequestId} {entry found : Versioned IssuedCertificate}
    (hfind : (Office.run stores moves).world.find? .certificates key = some entry)
    (hother : (Office.run stores moves).world.find? .certificates other = some found)
    (hissuer : entry.value.issuer = .request id) (hsame : found.value.issuer = .request id) :
    other = key := by
  obtain ⟨i, decided, -, hchange, -, honly⟩ := granted_of_issuer hfind hissuer
  obtain ⟨j, last, hcreation, hlast, -, -⟩ := granted_of_issuer hother hsame
  -- Both approvals have changed the request, which is changed at most once.
  obtain rfl : j = i := (abides s stores moves).lawful.eq_of_changes hchange hlast
  exact honly other _ hcreation

/-- What is certain of the certificates that are entered, after any moves. -/
structure Accountability (s : Service) (stores : Stores) (moves : List (Move s.desk)) :
    Prop where
  accounted : ∀ key entry,
    (Office.run stores moves).world.find? .certificates key = some entry →
      Accounted (Office.run stores moves).world key entry.value
  /-- They are neither changed nor removed, whatever moves follow. -/
  stays : ∀ key entry,
    (Office.run stores moves).world.find? .certificates key = some entry →
      ∀ more, (Office.run stores (moves ++ more)).world.find? .certificates key = some entry
  /-- No two of them name one request. -/
  alone : ∀ key other entry found (id : RequestId),
    (Office.run stores moves).world.find? .certificates key = some entry →
      (Office.run stores moves).world.find? .certificates other = some found →
        entry.value.issuer = .request id → found.value.issuer = .request id → other = key
  /-- If the service has the policy of a configuration that keeps its rules, they are valid as long
  as it says. -/
  policy : ∀ c : Config, c.isValid → s.issuance = c.issuance → ∀ key entry,
    (Office.run stores moves).world.find? .certificates key = some entry →
      WithinPolicy c.issuance entry.value

/-- Every certificate that is entered is accounted for. -/
theorem accountability (s : Service) (stores : Stores) (moves : List (Move s.desk)) :
    Accountability s stores moves where
  accounted := fun key entry => accounted_of_find
  stays := fun key entry hfind more => entry_stays hfind more
  alone := by
    intro key other entry found id hfind hother hissuer hsame
    exact eq_of_issuer hfind hother hissuer hsame
  policy := fun c hvalid hpolicy key entry => withinPolicy_of_find hvalid hpolicy

/-- Under the settings that hold where none are given, a certificate that was entered for a request
is held by it. -/
theorem accountability_of_approval : ({} : Config).isValid ∧
    usual.issuance = ({} : Config).issuance ∧ ∃ key entry,
      (Office.run .reliable (Example.certification usual)).world.find? .certificates key =
        some entry ∧
      entry.value.issuer = .request Example.submissionDraws.requestId ∧
      Accounted (Office.run .reliable (Example.certification usual)).world key entry.value ∧
      WithinPolicy usual.issuance entry.value := by
  have hvalid : ({} : Config).isValid := by decide
  have haccountability := accountability usual .reliable (Example.certification usual)
  obtain ⟨issued, hfind, hissuer⟩ := Example.exists_certificate
  exact ⟨hvalid, rfl, _, _, hfind, hissuer, haccountability.accounted _ _ hfind,
    haccountability.policy {} hvalid rfl _ _ hfind⟩

end Run

end Service

end CertAuthority
