import CertAuthority.Proofs.Office.Origin
import CertAuthority.Proofs.Office.Trace
import CertAuthority.Proofs.Request.Heeding
import CertAuthority.Proofs.Request.Sharing
import CertAuthority.Proofs.Text.Blank
import CertAuthority.Service

/-!
# Status and fields

The status of a request says which of its fields are filled in: none while it is pending, those of
the approval once it is approved, those of the rejection once it is rejected.  Ledgers that share
their tables write no other requests, so that none is ever read; and an agent is shown the fields
of a request that stands in the table.
-/

namespace CertAuthority

namespace CertificateRequest

/-- That a name was given, which is not blank. -/
def IsNamed (name? : Option String) : Prop :=
  ∃ name, name? = some name ∧ Text.isAllBlank name = false

/-- That a reason was given, which says something and has no blanks around it. -/
def IsReasoned (reason? : Option String) : Prop :=
  ∃ reason, reason? = some reason ∧ reason ≠ "" ∧ Text.IsTrimmed reason

/-- That a request bears a certificate and the marks of its approval. -/
structure HasApproval (r : CertificateRequest) : Prop where
  certificatePem : r.certificatePem.isSome
  serialNumber : r.serialNumber.isSome
  expiresAt : r.expiresAt.isSome
  approvedAt : r.approvedAt.isSome
  approvedBy : IsNamed r.approvedBy

structure LacksApproval (r : CertificateRequest) : Prop where
  certificatePem : r.certificatePem = none
  serialNumber : r.serialNumber = none
  expiresAt : r.expiresAt = none
  approvedAt : r.approvedAt = none
  approvedBy : r.approvedBy = none
  approvalComment : r.approvalComment = none

/-- That a request bears the marks of its rejection. -/
structure HasRejection (r : CertificateRequest) : Prop where
  rejectedAt : r.rejectedAt.isSome
  rejectedBy : IsNamed r.rejectedBy
  rejectReason : IsReasoned r.rejectReason

structure LacksRejection (r : CertificateRequest) : Prop where
  rejectedAt : r.rejectedAt = none
  rejectedBy : r.rejectedBy = none
  rejectReason : r.rejectReason = none

/-- That the fields of a request are those of its status. -/
inductive Agrees (r : CertificateRequest) : Prop where
  | pending (hstatus : r.status = .pendingApproval) (happroval : r.LacksApproval)
    (hrejection : r.LacksRejection)
  | approved (hstatus : r.status = .approved) (happroval : r.HasApproval)
    (hrejection : r.LacksRejection)
  | rejected (hstatus : r.status = .rejected) (happroval : r.LacksApproval)
    (hrejection : r.HasRejection)

variable {r decided : CertificateRequest}

/-- A request that agrees and is not decided has no decision. -/
theorem Agrees.of_not_isTerminal (hagrees : r.Agrees) (hpending : r.status.isTerminal = false) :
    r.LacksApproval ∧ r.LacksRejection := by
  cases hagrees with
  | pending hstatus happroval hrejection => exact ⟨happroval, hrejection⟩
  | approved hstatus => simp [hstatus, RequestStatus.isTerminal] at hpending
  | rejected hstatus => simp [hstatus, RequestStatus.isTerminal] at hpending

theorem Agrees.markApproved (hagrees : r.Agrees) {issued : IssuedCertificate}
    {approver comment : String} {now : Instant} (hnamed : Text.isAllBlank approver = false)
    (happroved : r.markApproved issued approver comment now = .ok decided) : decided.Agrees := by
  obtain ⟨hpending, rfl⟩ := markApproved_eq happroved
  obtain ⟨-, hrejection⟩ := hagrees.of_not_isTerminal hpending
  exact .approved rfl ⟨rfl, rfl, rfl, rfl, approver, rfl, hnamed⟩
    ⟨hrejection.rejectedAt, hrejection.rejectedBy, hrejection.rejectReason⟩

theorem Agrees.markRejected (hagrees : r.Agrees) {rejecter reason : String} {now : Instant}
    (hnamed : Text.isAllBlank rejecter = false) (hreason : Text.isAllBlank reason = false)
    (hrejected : r.markRejected rejecter (Text.trim reason) now = .ok decided) :
    decided.Agrees := by
  obtain ⟨hpending, rfl⟩ := markRejected_eq hrejected
  obtain ⟨happroval, -⟩ := hagrees.of_not_isTerminal hpending
  exact .rejected rfl
    ⟨happroval.certificatePem, happroval.serialNumber, happroval.expiresAt, happroval.approvedAt,
      happroval.approvedBy, happroval.approvalComment⟩
    ⟨rfl, ⟨rejecter, rfl, hnamed⟩, _, rfl, Text.trim_ne_empty hreason, Text.isTrimmed_trim reason⟩

end CertificateRequest

theorem Ledger.Submission.agrees_entry (submission : Ledger.Submission) (id : RequestId)
    (now : Instant) : (submission.entry id now).Agrees :=
  .pending rfl ⟨rfl, rfl, rfl, rfl, rfl, rfl⟩ ⟨rfl, rfl, rfl⟩

/-- That a view shows a certificate, and the authority's own, if and only if the request is
approved, and a reason if and only if it is rejected. -/
structure RequestView.Agrees (view : RequestView) : Prop where
  certificatePem : view.certificatePem.isSome ↔ view.status = .approved
  serialNumber : view.serialNumber.isSome ↔ view.status = .approved
  expiresAt : view.expiresAt.isSome ↔ view.status = .approved
  caCertificatePem : view.caCertificatePem.isSome ↔ view.status = .approved
  reason : view.reason.isSome ↔ view.status = .rejected

/-- That a view shows the fields of a request as they are, and the certificate of no authority but
its own. -/
structure RequestView.Shows (view : RequestView) (r : CertificateRequest)
    (caCertificatePem : String) : Prop where
  requestId : view.requestId = r.requestId
  status : view.status = r.status
  submittedAt : view.submittedAt = r.submittedAt
  certificatePem : view.certificatePem = r.certificatePem
  caCertificatePem : ∀ shown, view.caCertificatePem = some shown → shown = caCertificatePem
  serialNumber : view.serialNumber = r.serialNumber
  expiresAt : view.expiresAt = r.expiresAt
  approvedAt : view.approvedAt = r.approvedAt
  approvedBy : view.approvedBy = r.approvedBy
  rejectedAt : view.rejectedAt = r.rejectedAt
  rejectedBy : view.rejectedBy = r.rejectedBy
  reason : view.reason = r.rejectReason

theorem CertificateRequest.shows_view (r : CertificateRequest) (caCertificatePem : String) :
    (r.view caCertificatePem).Shows r caCertificatePem where
  requestId := rfl
  status := rfl
  submittedAt := rfl
  certificatePem := rfl
  caCertificatePem shown hshown := by
    simp only [view] at hshown
    split at hshown
    · exact (Option.some.inj hshown).symm
    · cases hshown
  serialNumber := rfl
  expiresAt := rfl
  approvedAt := rfl
  approvedBy := rfl
  rejectedAt := rfl
  rejectedBy := rfl
  reason := rfl

/-- Whoever is shown a request that agrees sees a view that agrees. -/
theorem CertificateRequest.Agrees.view {r : CertificateRequest} (hagrees : r.Agrees)
    (caCertificatePem : String) : (r.view caCertificatePem).Agrees := by
  cases hagrees with
  | pending hstatus happroval hrejection =>
      constructor <;> simp [CertificateRequest.view, hstatus, happroval.certificatePem,
        happroval.serialNumber, happroval.expiresAt, hrejection.rejectReason]
  | approved hstatus happroval hrejection =>
      constructor <;> simp [CertificateRequest.view, hstatus, happroval.certificatePem,
        happroval.serialNumber, happroval.expiresAt, hrejection.rejectReason]
  | rejected hstatus happroval hrejection =>
      obtain ⟨reason, hreason, -⟩ := hrejection.rejectReason
      constructor <;> simp [CertificateRequest.view, hstatus, happroval.certificatePem,
        happroval.serialNumber, happroval.expiresAt, hreason]

namespace Ledger

/-- That an effect writes no request but one that agrees. -/
def Agreeing : Effect → Prop
  | .table .requests (.create _ r) => r.Agrees
  | .table .requests (.update _ r _) => r.Agrees
  | _ => True

/-- That a reply shows no request but one that agrees. -/
def Agreed : (e : Effect) → e.Reply → Prop
  | .table .requests (.get _), .ok (some entry) => entry.value.Agrees
  | _, _ => True

theorem confined_agrees : Confined Agreed Agreeing CertificateRequest.Agrees where
  shown hagreed := hagreed
  update hr _ _ := hr
  other := by
    intro e he
    unfold Agreeing
    split
    · cases he
    · cases he
    · trivial

/-- Who approves after the check has a name. -/
theorem Approval.named_of_check {approval : Approval} {maxDays : Nat}
    (hcheck : approval.check maxDays = .ok ()) : Text.isAllBlank approval.approver = false := by
  unfold Approval.check requirePrincipal at hcheck
  cases hblank : Text.isAllBlank approval.approver with
  | false => rfl
  | true => simp [hblank] at hcheck

/-- Who rejects after the check has a name and a reason. -/
theorem Rejection.named_of_check {rejection : Rejection} (hcheck : rejection.check = .ok ()) :
    Text.isAllBlank rejection.rejecter = false ∧ Text.isAllBlank rejection.reason = false := by
  unfold Rejection.check requirePrincipal at hcheck
  cases hblank : Text.isAllBlank rejection.rejecter with
  | true => simp [hblank] at hcheck
  | false =>
      cases hreason : Text.isAllBlank rejection.reason with
      | false => exact ⟨rfl, rfl⟩
      | true => simp [hblank, hreason] at hcheck

/-- What is asked of ledgers that share their tables, and of services that show the requests to
agents. -/
inductive Inquiry where
  | errand (errand : Errand)
  | status (s : Service) (id : RequestId)

/-- The desk of all ledgers, with the services that show what is in them. -/
def frontDesk : Interface where
  Operation := Inquiry
  Result
    | .errand errand => desk.Result errand
    | .status _ _ => RequestView
  procedure
    | .errand errand => desk.procedure errand
    | .status s id => s.requestStatus id

theorem errand_heeds (errand : Errand) :
    (desk.procedure errand).Heeds Agreed Agreeing fun _ => True := by
  cases errand with
  | submit s => exact confined_agrees.submitFrom (fun id now _ => s.agrees_entry id now) maxAttempts
  | approve signer maxDays approval =>
      apply confined_agrees.approve
      · exact fun csrPem => (signer.quiet csrPem _ _).heeds fun e he =>
          confined_agrees.other (Effect.not_writesTo_of_not_asksWrite
            (Effect.not_asksWrite_of_not_isCall he) .requests)
      · intro hcheck r decided issued now hr _ _ happroved
        exact hr.markApproved (Approval.named_of_check hcheck) happroved
  | reject rejection =>
      apply confined_agrees.reject
      intro hcheck r decided now hr _ hrejected
      obtain ⟨hnamed, hreason⟩ := Rejection.named_of_check hcheck
      exact hr.markRejected hnamed hreason hrejected

theorem inquiry_heeds (inquiry : Inquiry) :
    (frontDesk.procedure inquiry).Heeds Agreed Agreeing fun _ => True := by
  cases inquiry with
  | errand errand => exact errand_heeds errand
  | status s id =>
      have hget : (get id).Heeds Agreed Agreeing CertificateRequest.Agrees :=
        (confined_agrees.find id).bind fun _ hcurrent => hcurrent
      exact hget.bind fun _ _ => trivial

section World

variable {w : World} {stores : Stores}

theorem agrees_of_written (hlog : ∀ event ∈ w.log, Agreeing event.effect) {key : String}
    {entry : Versioned (TableName.Row .requests)} (hwritten : w.Written .requests key entry) :
    CertificateRequest.Agrees entry.value := by
  cases hwritten with
  | created hcreation => exact hlog _ hcreation
  | changed hchange => exact hlog _ hchange

/-- As long as requests that agree are written, such are shown. -/
theorem agreed_reply (w : World) (chance : Chance) (e : Effect) (hreachable : w.Reachable stores)
    (hlog : ∀ event ∈ w.log, Agreeing event.effect) : Agreed e (w.reply stores chance e) := by
  unfold Agreed
  split
  · next key entry hreply =>
      rcases w.reply_get stores chance .requests key with ⟨error, -, herror⟩ | hok
      · cases herror.symm.trans hreply
      · exact agrees_of_written hlog (hreachable.written (Except.ok.inj (hok.symm.trans hreply)))
  · trivial

end World

theorem endsWithin_requestStatus (s : Service) (id : RequestId) :
    (s.requestStatus id).EndsWithin 1 := by
  intro reply
  cases reply with
  | error e => exact nofun
  | ok found =>
      cases found with
      | none => exact nofun
      | some entry => trivial

/-- Whoever is shown a view has read the request. -/
theorem view_of_leads {task : Nat} {s : Service} {id : RequestId} {past : List Event}
    {rest : Procedure RequestView} {view : RequestView}
    (hleads : (s.requestStatus id).Leads task past rest)
    (houtcome : rest.outcome? = some (.ok view)) :
    ∃ entry, past = [⟨task, .table .requests (.get id.text), .ok (some entry)⟩] ∧
      view = entry.value.view s.certificatePem := by
  obtain ⟨reply, later, rfl, hnext⟩ := hleads.of_call houtcome
  rcases reply with e | ⟨- | entry⟩
  · cases hnext
    cases houtcome
  · cases hnext
    cases houtcome
  · cases hnext
    cases houtcome
    exact ⟨entry, rfl, rfl⟩

section Run

variable {stores : Stores} {moves : List (Move frontDesk)}

/-- The requests that stand in the table agree. -/
theorem agrees_of_find {key : String} {entry : Versioned CertificateRequest}
    (hfind : (Office.run stores moves).world.find? .requests key = some entry) :
    entry.value.Agrees := by
  have hkeeps := @Interface.keeps_of_heeds frontDesk Agreed Agreeing (fun _ _ => True) stores
    inquiry_heeds agreed_reply
  have habides := Office.abides_run hkeeps moves
  exact agrees_of_written habides.lawful (habides.reachable.written hfind)

/-- A view shows a request that stood in the table when it was read. -/
theorem found_of_shown {i : Nat} {s : Service} {id : RequestId} {view : RequestView}
    (hended : (Office.run stores moves).Ended i (.status s id) (.ok view)) :
    ∃ earlier entry, earlier <+: moves ∧
      (Office.run stores earlier).world.find? .requests id.text = some entry ∧
      view = entry.value.view s.certificatePem := by
  obtain ⟨rest, htask, houtcome⟩ := hended
  obtain ⟨entry, hpast, hview⟩ :=
    view_of_leads (Office.leads_of_task (endsWithin_requestStatus s id) htask) houtcome
  have hread : ⟨i, .table .requests (.get id.text), .ok (some entry)⟩ ∈
      (Office.run stores moves).world.past i := by
    rw [hpast]
    exact List.mem_cons_self
  obtain ⟨earlier, hearlier, hfind, -⟩ := Office.read_later
    (fun _ hnone => (List.not_mem_nil hnone).elim) (Nat.zero_le i) (World.mem_past_iff.mp hread).1
  exact ⟨earlier, entry, hearlier, hfind, hview⟩

end Run

/-- What is certain of all requests, and of all that agents are shown of them. -/
structure Agreement (stores : Stores) (moves : List (Move frontDesk)) : Prop where
  /-- The fields of every request are those of its status, and its view shows them. -/
  requests : ∀ key entry, (Office.run stores moves).world.find? .requests key = some entry →
    entry.value.Agrees ∧ ∀ caCertificatePem,
      (entry.value.view caCertificatePem).Shows entry.value caCertificatePem ∧
      (entry.value.view caCertificatePem).Agrees
  /-- Whoever has asked for a request was shown the request as it stood in the table at some time,
  in a view that agrees. -/
  views : ∀ i service id view, (Office.run stores moves).Ended i (.status service id) (.ok view) →
    (∃ earlier entry, earlier <+: moves ∧
      (Office.run stores earlier).world.find? .requests id.text = some entry ∧
      view.Shows entry.value service.certificatePem) ∧ view.Agrees

/-- Whatever ledgers that share their tables do at the same time, and whichever calls to the tables
fail, status and fields agree. -/
theorem agreement (stores : Stores) (moves : List (Move frontDesk)) : Agreement stores moves := by
  constructor
  · intro key entry hfind
    have hagrees := agrees_of_find hfind
    exact ⟨hagrees, fun ca => ⟨entry.value.shows_view ca, hagrees.view ca⟩⟩
  · intro i service id view hended
    obtain ⟨earlier, entry, hearlier, hfind, rfl⟩ := found_of_shown hended
    exact ⟨⟨earlier, entry, hearlier, hfind, entry.value.shows_view _⟩,
      (agrees_of_find hfind).view _⟩

end Ledger

end CertAuthority
