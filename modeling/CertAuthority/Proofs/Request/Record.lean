import CertAuthority.Proofs.Certificate.Register
import CertAuthority.Request.Ledger

/-!
# The record of a request

A request is entered once, changed by one decision at most, and never removed.  Its record tells
all of that: which submission was entered, by which task, and how and by which task it was decided.
A certificate is entered once under its serial number and stays.
-/

namespace CertAuthority

open Versioned (firstRevision nextRevision)

namespace CertificateRequest

/-- What was submitted: the request without its decision. -/
def submitted (r : CertificateRequest) : RequestId × Ledger.Submission × Instant :=
  (r.requestId, ⟨r.csrPem, r.subject, r.sourceIp, r.bootstrapTokenId, r.agentInfo⟩,
    r.submittedAt)

theorem ensurePending_of_not_isTerminal {r : CertificateRequest}
    (hpending : r.status.isTerminal = false) : r.ensurePending = .ok () := by
  simp [ensurePending, hpending]

theorem ensurePending_of_isTerminal {r : CertificateRequest} (hterminal : r.status.isTerminal) :
    r.ensurePending = .error (.invalidTransition r.requestId.text r.status.text) := by
  simp [ensurePending, hterminal]

/-- How a request may be decided. -/
inductive Decision (r decided : CertificateRequest) : Prop where
  | approved (issued : IssuedCertificate) (approver comment : String) (now : Instant)
    (happroved : r.markApproved issued approver comment now = .ok decided)
  | rejected (rejecter reason : String) (now : Instant)
    (hrejected : r.markRejected rejecter reason now = .ok decided)

theorem markApproved_of_pending {r : CertificateRequest} (hpending : r.status.isTerminal = false)
    (issued : IssuedCertificate) (approver comment : String) (now : Instant) :
    ∃ decided, r.markApproved issued approver comment now = .ok decided := by
  simp only [markApproved, ensurePending_of_not_isTerminal hpending]
  exact ⟨_, rfl⟩

theorem markRejected_of_pending {r : CertificateRequest} (hpending : r.status.isTerminal = false)
    (rejecter reason : String) (now : Instant) :
    ∃ decided, r.markRejected rejecter reason now = .ok decided := by
  simp only [markRejected, ensurePending_of_not_isTerminal hpending]
  exact ⟨_, rfl⟩

theorem markRejected_of_isTerminal {r : CertificateRequest} (hterminal : r.status.isTerminal)
    (rejecter reason : String) (now : Instant) :
    r.markRejected rejecter reason now =
      .error (.invalidTransition r.requestId.text r.status.text) := by
  rw [markRejected, ensurePending_of_isTerminal hterminal]
  rfl

/-- What an approval fills in. -/
theorem markApproved_eq {r decided : CertificateRequest} {issued : IssuedCertificate}
    {approver comment : String} {now : Instant}
    (happroved : r.markApproved issued approver comment now = .ok decided) :
    r.status.isTerminal = false ∧ decided = { r with
      status := .approved
      certificatePem := some issued.certificatePem
      serialNumber := some issued.serialNumber
      expiresAt := some issued.expiresAt
      approvedAt := some now
      approvedBy := some approver
      approvalComment := if comment = "" then none else some comment } := by
  cases hterminal : r.status.isTerminal with
  | true =>
      rw [markApproved, ensurePending_of_isTerminal hterminal] at happroved
      cases happroved
  | false =>
      rw [markApproved, ensurePending_of_not_isTerminal hterminal] at happroved
      cases happroved
      exact ⟨rfl, rfl⟩

/-- What a rejection fills in. -/
theorem markRejected_eq {r decided : CertificateRequest} {rejecter reason : String}
    {now : Instant} (hrejected : r.markRejected rejecter reason now = .ok decided) :
    r.status.isTerminal = false ∧ decided = { r with
      status := .rejected
      rejectedAt := some now
      rejectedBy := some rejecter
      rejectReason := some reason } := by
  cases hterminal : r.status.isTerminal with
  | true =>
      rw [markRejected, ensurePending_of_isTerminal hterminal] at hrejected
      cases hrejected
  | false =>
      rw [markRejected, ensurePending_of_not_isTerminal hterminal] at hrejected
      cases hrejected
      exact ⟨rfl, rfl⟩

namespace Decision

variable {r decided : CertificateRequest}

theorem isTerminal (hdecision : r.Decision decided) : decided.status.isTerminal := by
  cases hdecision with
  | approved issued approver comment now happroved => rw [(markApproved_eq happroved).2]; rfl
  | rejected rejecter reason now hrejected => rw [(markRejected_eq hrejected).2]; rfl

/-- Only a pending request is decided. -/
theorem not_isTerminal (hdecision : r.Decision decided) : r.status.isTerminal = false := by
  cases hdecision with
  | approved issued approver comment now happroved => exact (markApproved_eq happroved).1
  | rejected rejecter reason now hrejected => exact (markRejected_eq hrejected).1

/-- A decision leaves what was submitted. -/
theorem submitted (hdecision : r.Decision decided) : decided.submitted = r.submitted := by
  cases hdecision with
  | approved issued approver comment now happroved => rw [(markApproved_eq happroved).2]; rfl
  | rejected rejecter reason now hrejected => rw [(markRejected_eq hrejected).2]; rfl

end Decision

end CertificateRequest

namespace Ledger

/-- That a request is what a submission was entered as under a key. -/
def Filed (admits : Submission → Prop) (key : String) (r : CertificateRequest) : Prop :=
  ∃ s id now, admits s ∧ id.text = key ∧ r = s.entry id now

/-- What stands under the key of a request, and by which writes. -/
inductive Record (admits : Submission → Prop) (key : String) :
    Option (Versioned CertificateRequest) → List Event → Prop where
  | absent : Record admits key none []
  | pending (clerk : Nat) {r : CertificateRequest} (hfiled : Filed admits key r) :
    Record admits key (some (.fresh r)) [.creation clerk .requests key r]
  | decided (clerk judge : Nat) {r decided : CertificateRequest} (hfiled : Filed admits key r)
    (hdecision : r.Decision decided) :
    Record admits key (some ⟨decided, nextRevision firstRevision⟩)
      [.creation clerk .requests key r, .change judge .requests key decided firstRevision]

namespace Record

variable {admits : Submission → Prop} {key : String} {writes : List Event}
variable {held? : Option (Versioned CertificateRequest)}

/-- A request was changed by nobody, or by one task, whose decision stands. -/
theorem changes (hrecord : Record admits key held? writes) :
    writes.filter (·.isChange) = [] ∨
      ∃ judge decided, held? = some ⟨decided, nextRevision firstRevision⟩ ∧
        decided.status.isTerminal ∧
        writes.filter (·.isChange) = [.change judge .requests key decided firstRevision] := by
  cases hrecord with
  | absent => exact .inl rfl
  | pending clerk hfiled => exact .inl rfl
  | decided clerk judge hfiled hdecision =>
      exact .inr ⟨judge, _, rfl, hdecision.isTerminal, rfl⟩

/-- A request that is there was entered, as it was submitted. -/
theorem creation (hrecord : Record admits key held? writes) {entry : Versioned CertificateRequest}
    (hentry : held? = some entry) :
    ∃ clerk r, .creation clerk .requests key r ∈ writes ∧ entry.value.submitted = r.submitted := by
  cases hrecord with
  | absent => cases hentry
  | pending clerk hfiled =>
      cases hentry
      exact ⟨clerk, _, List.mem_cons_self, rfl⟩
  | decided clerk judge hfiled hdecision =>
      cases hentry
      exact ⟨clerk, _, List.mem_cons_self, hdecision.submitted⟩

/-- A request stands under its identifier. -/
theorem identifier {entry : Versioned CertificateRequest}
    (hrecord : Record admits key (some entry) writes) : entry.value.requestId.text = key := by
  cases hrecord with
  | pending clerk hfiled =>
      obtain ⟨s, id, now, -, rfl, rfl⟩ := hfiled
      rfl
  | decided clerk judge hfiled hdecision =>
      obtain ⟨s, id, now, -, rfl, rfl⟩ := hfiled
      exact congrArg (·.1.text) hdecision.submitted

/-- A request that is there stays, as it was submitted, and only a decision of a pending request
makes a difference to it. -/
theorem later (hrecord : Record admits key held? writes)
    {later? : Option (Versioned CertificateRequest)} {more : List Event}
    (hlater : Record admits key later? more) (hgrown : writes <+: more)
    {entry : Versioned CertificateRequest} (hentry : held? = some entry) :
    ∃ later, later? = some later ∧ later.value.submitted = entry.value.submitted ∧
      (later = entry ∨ entry.value.status.isTerminal = false ∧
        ∃ judge, more.filter (·.isChange) =
          [.change judge .requests key later.value firstRevision]) := by
  cases hrecord with
  | absent => cases hentry
  | pending clerk hfiled =>
      cases hentry
      cases hlater with
      | absent => cases List.prefix_nil.mp hgrown
      | pending other hother =>
          obtain ⟨hsame, -⟩ := List.cons_prefix_cons.mp hgrown
          cases hsame
          exact ⟨_, rfl, rfl, .inl rfl⟩
      | decided other judge hother hdecision =>
          obtain ⟨hsame, -⟩ := List.cons_prefix_cons.mp hgrown
          cases hsame
          have hpending := hdecision.not_isTerminal
          exact ⟨_, rfl, hdecision.submitted, .inr ⟨hpending, judge, rfl⟩⟩
  | decided clerk judge hfiled hdecision =>
      cases hentry
      cases hlater with
      | absent => cases List.prefix_nil.mp hgrown
      | pending other hother =>
          obtain ⟨-, htail⟩ := List.cons_prefix_cons.mp hgrown
          cases List.prefix_nil.mp htail
      | decided other last hother hlast =>
          obtain ⟨-, htail⟩ := List.cons_prefix_cons.mp hgrown
          obtain ⟨hsame, -⟩ := List.cons_prefix_cons.mp htail
          cases hsame
          exact ⟨_, rfl, rfl, .inl rfl⟩

end Record

/-- What stands under a serial number, and by which writes. -/
inductive Entered (key : String) : Option (Versioned IssuedCertificate) → List Event → Prop where
  | absent : Entered key none []
  | present (task : Nat) {issued : IssuedCertificate} (hserial : issued.serialNumber.text = key) :
    Entered key (some (.fresh issued)) [.creation task .certificates key issued]

/-- The law of the requests, of submissions that are admitted, and of the certificates. -/
def Law (admits : Submission → Prop) (w : World) : Prop :=
  w.Ruled .requests (Record admits) ∧ w.Ruled .certificates Entered

variable {admits : Submission → Prop} {w : World} {stores : Stores}

theorem steady_law : Steady (Law admits) :=
  (steady_ruled .requests _).and (steady_ruled .certificates _)

theorem law_empty : Law admits .empty :=
  ⟨fun _ => .absent, fun _ => .absent⟩

namespace Law

theorem certificates (hlaw : Law admits w) :
    w.Ruled .certificates (WriteOnce Registry.OwnCertificate) := by
  intro key
  have hkey := hlaw.2 key
  generalize w.writes .certificates key = writes at hkey ⊢
  generalize w.find? .certificates key = held? at hkey ⊢
  cases hkey with
  | absent => exact .absent
  | present task hserial => exact .present task hserial

/-- Only one change of a request was ever accepted. -/
theorem eq_of_changes (hlaw : Law admits w) {key : String} {task other revision later : Nat}
    {decided found : CertificateRequest}
    (hchange : .change task .requests key decided revision ∈ w.log)
    (hother : .change other .requests key found later ∈ w.log) : other = task := by
  have hchanges {i n : Nat} {r : CertificateRequest}
      (hmem : .change i .requests key r n ∈ w.log) :
      .change i .requests key r n ∈ (w.writes .requests key).filter (·.isChange) :=
    List.mem_filter.mpr ⟨List.mem_filter.mpr ⟨hmem, by simp⟩, rfl⟩
  have hfirst := hchanges hchange
  have hsecond := hchanges hother
  rcases (hlaw.1 key).changes with hnone | ⟨judge, last, -, -, honly⟩
  · rw [hnone] at hfirst
    cases hfirst
  · rw [honly, List.mem_singleton] at hfirst hsecond
    cases hfirst
    cases hsecond
    rfl

/-- What asks no write of the requests and of the certificates keeps the law. -/
theorem after_other (hlaw : Law admits w) (chance : Chance) (task : Nat) {e : Effect}
    (hrequests : e.writesTo .requests = false) (hcertificates : e.writesTo .certificates = false) :
    Law admits (w.after stores chance task e) :=
  ⟨hlaw.1.after_other stores chance task hrequests,
    hlaw.2.after_other stores chance task hcertificates⟩

/-- A submission is entered. -/
theorem file (hlaw : Law admits w) (chance : Chance) (task : Nat) {s : Submission}
    (hadmits : admits s) (id : RequestId) (now : Instant) :
    Law admits
      (w.after stores chance task (.table .requests (.create id.text (s.entry id now)))) := by
  refine ⟨hlaw.1.after_create _ _ _ _ _ fun hnew => ?_, hlaw.2.after_other _ _ _ rfl⟩
  have hkey := hlaw.1 id.text
  rw [hnew] at hkey
  generalize w.writes .requests id.text = writes at hkey ⊢
  cases hkey with
  | absent => exact .pending task ⟨s, id, now, hadmits, rfl, rfl⟩

/-- A certificate is entered. -/
theorem enter (hlaw : Law admits w) (chance : Chance) (task : Nat) (issued : IssuedCertificate) :
    Law admits (w.after stores chance task
      (.table .certificates (.create issued.serialNumber.text issued))) := by
  refine ⟨hlaw.1.after_other _ _ _ rfl, hlaw.2.after_create _ _ _ _ _ fun hnew => ?_⟩
  have hkey := hlaw.2 issued.serialNumber.text
  rw [hnew] at hkey
  generalize w.writes .certificates issued.serialNumber.text = writes at hkey ⊢
  cases hkey with
  | absent => exact .present task rfl

/-- A request is decided, if it is still at its first revision.  Requests are entered once, so the
one that was read then is the one that is there. -/
theorem decide (hlaw : Law admits w) (chance : Chance) (task clerk : Nat) {key : String}
    {r decided : CertificateRequest} (hentered : .creation clerk .requests key r ∈ w.log)
    (hdecision : r.Decision decided) :
    Law admits (w.after stores chance task
      (.table .requests (.update key decided firstRevision))) := by
  refine ⟨hlaw.1.after_update _ _ _ _ _ _ fun held hheld hrevision => ?_,
    hlaw.2.after_other _ _ _ rfl⟩
  have hmem : .creation clerk .requests key r ∈ w.writes .requests key :=
    List.mem_filter.mpr ⟨hentered, by simp⟩
  have hkey := hlaw.1 key
  rw [hheld] at hkey
  generalize w.writes .requests key = writes at hkey hmem ⊢
  cases hkey with
  | pending other hfiled =>
      rw [List.mem_singleton] at hmem
      cases hmem
      exact .decided clerk task hfiled hdecision
  | decided => cases hrevision

end Law

/-- The effects of whoever decides nothing: a request may be entered, and besides that requests and
certificates are not written. -/
def Clerical (admits : Submission → Prop) (e : Effect) : Prop :=
  (e.writesTo .requests = false ∧ e.writesTo .certificates = false) ∨
    ∃ s id now, admits s ∧ e = .table .requests (.create id.text (s.entry id now))

theorem Law.clerical (hlaw : Law admits w) (chance : Chance) (task : Nat) {e : Effect}
    (he : Clerical admits e) : Law admits (w.after stores chance task e) := by
  rcases he with ⟨hrequests, hcertificates⟩ | ⟨s, id, now, hadmits, rfl⟩
  · exact hlaw.after_other chance task hrequests hcertificates
  · exact hlaw.file chance task hadmits id now

theorem submitFrom_clerical {s : Submission} (hadmits : admits s) (attempts : Nat) :
    (submitFrom s attempts).Only (Clerical admits) := by
  induction attempts with
  | zero => trivial
  | succ attempts ih =>
      refine ⟨.inl ⟨rfl, rfl⟩, fun now => ⟨.inl ⟨rfl, rfl⟩, fun tail => ?_⟩⟩
      refine ⟨.inr ⟨s, RequestId.ofRandom now tail, now, hadmits, rfl⟩, fun reply => ?_⟩
      unfold entered
      split
      · trivial
      · exact ih
      · trivial

theorem submit_clerical {s : Submission} (hadmits : admits s) :
    (submit s).Only (Clerical admits) :=
  submitFrom_clerical hadmits maxAttempts

end Ledger

end CertAuthority
