import CertAuthority.Proofs.Request.Record

/-!
# Who decides a request

An approval and a rejection read the request, and write it back at the revision that they read.
The account of a decision lists the calls to tables that it may have had, and how it ends after
them: it has none or a few calls that change nothing, or its change was accepted, and then only an
approval has one more call, to enter the certificate.
-/

namespace CertAuthority

/-- Signing asks nothing of the tables, and comes to an end, with what was issued if with
anything. -/
theorem Authority.quiet_sign (a : Authority) (csrPem : String) (days : Nat)
    (issuer : CertificateIssuer) :
    (a.sign csrPem days issuer).Quiet fun issued =>
      ∃ now draw, Issuance.sign a csrPem days issuer now draw = .ok issued := by
  refine ⟨rfl, fun now => ⟨rfl, fun serial => ⟨rfl, fun nonce => ?_⟩⟩⟩
  change (ofTask _).Quiet _
  generalize hdraw : Issuance.Draw.mk _ _ = draw
  cases hissued : Issuance.sign a csrPem days issuer now draw with
  | ok issued => exact ⟨now, draw, hissued⟩
  | error f => cases f <;> exact nofun

namespace Ledger

open Versioned (firstRevision nextRevision)

variable {α : Type}

/-- The reading of a request with its answer. -/
def reading (task : Nat) (id : RequestId)
    (answer : Except CaError (Option (Versioned CertificateRequest))) : Event :=
  ⟨task, .table .requests (.get id.text), answer⟩

/-- A change of a request that was refused. -/
def refusal (task : Nat) (id : RequestId) (decided : CertificateRequest) (e : CaError) : Event :=
  ⟨task, .table .requests (.update id.text decided firstRevision), .error e⟩

/-- What a decision tells of its calls.  What follows upon a change that was accepted is left to
the kind of the decision. -/
inductive Deciding (task : Nat) (id : RequestId)
    (completed : CertificateRequest → CertificateRequest → Account α) : Account α where
  | unread {rest : Procedure α} (hfruitless : rest.Fruitless) : Deciding task id completed [] rest
  | unreadable (e : CaError) {rest : Procedure α} {effects : Nat}
    (hends : rest.Concludes (.error (.error e)) effects) :
    Deciding task id completed [reading task id (.error e)] rest
  | unknown {rest : Procedure α} {effects : Nat}
    (hends : rest.Concludes (.error (.error (.requestNotFound id.text))) effects) :
    Deciding task id completed [reading task id (.ok none)] rest
  /-- The request that was read is decided already. -/
  | late {current : Versioned CertificateRequest} {rest : Procedure α} {effects : Nat}
    (hterminal : current.value.status.isTerminal)
    (hends : rest.Concludes (.error (.error (.invalidTransition current.value.requestId.text
      current.value.status.text))) effects) :
    Deciding task id completed [reading task id (.ok (some current))] rest
  | considered {current : Versioned CertificateRequest} {rest : Procedure α}
    (hpending : current.value.status.isTerminal = false) (hfruitless : rest.Fruitless) :
    Deciding task id completed [reading task id (.ok (some current))] rest
  | refused {current : Versioned CertificateRequest} {decided : CertificateRequest} (e : CaError)
    {rest : Procedure α} {effects : Nat} (hpending : current.value.status.isTerminal = false)
    (hends : rest.Concludes (.error (.error e)) effects) :
    Deciding task id completed
      [reading task id (.ok (some current)), refusal task id decided e] rest
  | accepted {current : Versioned CertificateRequest} {decided : CertificateRequest}
    {calls : List Event} {rest : Procedure α}
    (hpending : current.value.status.isTerminal = false)
    (hcompleted : completed current.value decided calls rest) :
    Deciding task id completed
      (reading task id (.ok (some current)) ::
        .change task .requests id.text decided firstRevision :: calls) rest

/-- How a request was approved: with a certificate that was signed for it. -/
structure Grant (approval : Approval) (signed : String → IssuedCertificate → Prop)
    (r decided : CertificateRequest) (issued : IssuedCertificate) : Prop where
  signed : signed r.csrPem issued
  marked : ∃ now, r.markApproved issued approval.approver approval.comment now = .ok decided

/-- What an approval tells after its change was accepted. -/
inductive Approving (task : Nat) (approval : Approval) (signed : String → IssuedCertificate → Prop)
    (r decided : CertificateRequest) : Account IssuedCertificate where
  | unrecorded {issued : IssuedCertificate} {rest : Procedure IssuedCertificate}
    (hgrant : Grant approval signed r decided issued) (hgoing : rest.Going) :
    Approving task approval signed r decided [] rest
  | recorded {issued : IssuedCertificate} {rest : Procedure IssuedCertificate} {effects : Nat}
    (hgrant : Grant approval signed r decided issued)
    (hends : rest.Concludes (.ok issued) effects) :
    Approving task approval signed r decided
      [.creation task .certificates issued.serialNumber.text issued] rest
  | unrecordable {issued : IssuedCertificate} (e : CaError) {rest : Procedure IssuedCertificate}
    {effects : Nat} (hgrant : Grant approval signed r decided issued)
    (hends : rest.Concludes (.error (.error e)) effects) :
    Approving task approval signed r decided
      [⟨task, .table .certificates (.create issued.serialNumber.text issued), .error e⟩] rest

/-- What a rejection tells after its change was accepted. -/
inductive Rejecting (rejection : Rejection) (r decided : CertificateRequest) : Account Unit where
  | rejected {now : Instant} {rest : Procedure Unit} {effects : Nat}
    (hrejected : r.markRejected rejection.rejecter (Text.trim rejection.reason) now = .ok decided)
    (hends : rest.Concludes (.ok ()) effects) : Rejecting rejection r decided [] rest

theorem Deciding.ensuring {task : Nat} {id : RequestId} {last : Effect}
    (hlast : last.isCall = false)
    {completed : CertificateRequest → CertificateRequest → Account α}
    (hcompleted : ∀ r decided calls rest, completed r decided calls rest →
      completed r decided calls (rest.ensuring last))
    (calls : List Event) (rest : Procedure α)
    (hdeciding : Deciding task id completed calls rest) :
    Deciding task id completed calls (rest.ensuring last) := by
  cases hdeciding with
  | unread hfruitless => exact .unread (Procedure.going_ensuring rest last).fruitless
  | unreadable e hends => exact .unreadable e (hends.ensuring hlast)
  | unknown hends => exact .unknown (hends.ensuring hlast)
  | late hterminal hends => exact .late hterminal (hends.ensuring hlast)
  | considered hpending hfruitless =>
      exact .considered hpending (Procedure.going_ensuring rest last).fruitless
  | refused e hpending hends => exact .refused e hpending (hends.ensuring hlast)
  | accepted hpending h => exact .accepted hpending (hcompleted _ _ _ _ h)

theorem Approving.ensuring {task : Nat} {approval : Approval}
    {signed : String → IssuedCertificate → Prop} {last : Effect} (hlast : last.isCall = false)
    (r decided : CertificateRequest) (calls : List Event) (rest : Procedure IssuedCertificate)
    (happroving : Approving task approval signed r decided calls rest) :
    Approving task approval signed r decided calls (rest.ensuring last) := by
  cases happroving with
  | unrecorded hgrant hgoing =>
      exact .unrecorded hgrant (Procedure.going_ensuring rest last)
  | recorded hgrant hends => exact .recorded hgrant (hends.ensuring hlast)
  | unrecordable e hgrant hends => exact .unrecordable e hgrant (hends.ensuring hlast)

theorem Rejecting.ensuring {rejection : Rejection} {last : Effect} (hlast : last.isCall = false)
    (r decided : CertificateRequest) (calls : List Event) (rest : Procedure Unit)
    (hrejecting : Rejecting rejection r decided calls rest) :
    Rejecting rejection r decided calls (rest.ensuring last) := by
  cases hrejecting with
  | rejected hrejected hends => exact .rejected hrejected (hends.ensuring hlast)

theorem Deciding.finished {task : Nat} {id : RequestId}
    {completed : CertificateRequest → CertificateRequest → Account α} {calls : List Event}
    (hcompleted : ∀ r decided calls, ¬ completed r decided calls (.fail .unfinished)) :
    ¬ Deciding task id completed calls (.fail .unfinished) := by
  intro hdeciding
  cases hdeciding with
  | unread hfruitless => exact hfruitless rfl
  | unreadable e hends => exact hends.ne_unfinished rfl
  | unknown hends => exact hends.ne_unfinished rfl
  | late hterminal hends => exact hends.ne_unfinished rfl
  | considered hpending hfruitless => exact hfruitless rfl
  | refused e hpending hends => exact hends.ne_unfinished rfl
  | accepted hpending h => exact hcompleted _ _ _ h

theorem Approving.finished {task : Nat} {approval : Approval}
    {signed : String → IssuedCertificate → Prop} (r decided : CertificateRequest)
    (calls : List Event) :
    ¬ Approving task approval signed r decided calls (.fail .unfinished) := by
  intro happroving
  cases happroving with
  | unrecorded hgrant hgoing => exact hgoing
  | recorded hgrant hends => cases hends
  | unrecordable e hgrant hends => exact hends.ne_unfinished rfl

theorem Rejecting.finished {rejection : Rejection} (r decided : CertificateRequest)
    (calls : List Event) : ¬ Rejecting rejection r decided calls (.fail .unfinished) := by
  intro hrejecting
  cases hrejecting with
  | rejected hrejected hends => cases hends

/-- That what follows upon an accepted change leaves the requests alone. -/
def Aside (completed : CertificateRequest → CertificateRequest → Account α) : Prop :=
  ∀ r decided calls rest, completed r decided calls rest →
    ∀ event ∈ calls, ∀ call, event.effect ≠ .table .requests call

theorem Approving.aside (task : Nat) (approval : Approval)
    (signed : String → IssuedCertificate → Prop) : Aside (Approving task approval signed) := by
  rintro r decided calls rest happroving event hevent call heffect
  cases happroving with
  | unrecorded hgrant hgoing => cases hevent
  | recorded hgrant hends =>
      rw [List.mem_singleton.mp hevent] at heffect
      cases heffect
  | unrecordable e hgrant hends =>
      rw [List.mem_singleton.mp hevent] at heffect
      cases heffect

theorem Rejecting.aside (rejection : Rejection) : Aside (Rejecting rejection) := by
  rintro r decided calls rest hrejecting event hevent
  cases hrejecting with
  | rejected hrejected hends => cases hevent

section Consequences

variable {task : Nat} {id : RequestId} {calls : List Event} {rest : Procedure α}
variable {completed : CertificateRequest → CertificateRequest → Account α}

/-- Who has read a decided request fails for that, and writes nothing. -/
theorem Deciding.late_of_reading (hdeciding : Deciding task id completed calls rest)
    (haside : Aside completed) {current : Versioned CertificateRequest}
    (hread : reading task id (.ok (some current)) ∈ calls)
    (hterminal : current.value.status.isTerminal) :
    calls.filter (·.isWrite) = [] ∧
      ∃ effects, rest.Concludes (.error (.error (.invalidTransition current.value.requestId.text
        current.value.status.text))) effects := by
  cases hdeciding with
  | unread hfruitless => cases hread
  | unreadable e hends => cases List.mem_singleton.mp hread
  | unknown hends => cases List.mem_singleton.mp hread
  | late hlate hends =>
      cases List.mem_singleton.mp hread
      exact ⟨rfl, _, hends⟩
  | considered hpending hfruitless =>
      cases List.mem_singleton.mp hread
      simp [hterminal] at hpending
  | refused e hpending hends =>
      rcases List.mem_cons.mp hread with hfirst | hsecond
      · cases hfirst
        simp [hterminal] at hpending
      · cases List.mem_singleton.mp hsecond
  | accepted hpending hcompleted =>
      rcases List.mem_cons.mp hread with hfirst | hlater
      · cases hfirst
        simp [hterminal] at hpending
      · rcases List.mem_cons.mp hlater with hsecond | hlast
        · cases hsecond
        · exact absurd rfl (haside _ _ _ _ hcompleted _ hlast _)

/-- A decision asks for no change but of its own request: it was refused, or it was accepted, and
then follows what its kind does. -/
theorem Deciding.update_cases (hdeciding : Deciding task id completed calls rest)
    (haside : Aside completed) {event : Event} (hevent : event ∈ calls) {key : String}
    {value : CertificateRequest} {revision : Nat}
    (hupdate : event.effect = .table .requests (.update key value revision)) :
    key = id.text ∧
      ((∃ e effects, event = refusal task id value e ∧ calls.filter (·.isWrite) = [] ∧
          rest.Concludes (.error (.error e)) effects) ∨
        ∃ current later, event = .change task .requests id.text value firstRevision ∧
          completed current.value value later rest ∧
          calls = reading task id (.ok (some current)) :: event :: later) := by
  cases hdeciding with
  | unread hfruitless => cases hevent
  | unreadable e hends =>
      cases List.mem_singleton.mp hevent
      cases hupdate
  | unknown hends =>
      cases List.mem_singleton.mp hevent
      cases hupdate
  | late hlate hends =>
      cases List.mem_singleton.mp hevent
      cases hupdate
  | considered hpending hfruitless =>
      cases List.mem_singleton.mp hevent
      cases hupdate
  | refused e hpending hends =>
      rcases List.mem_cons.mp hevent with rfl | hsecond
      · cases hupdate
      · cases List.mem_singleton.mp hsecond
        cases hupdate
        exact ⟨rfl, .inl ⟨e, _, rfl, rfl, hends⟩⟩
  | accepted hpending hcompleted =>
      rcases List.mem_cons.mp hevent with rfl | hlater
      · cases hupdate
      · rcases List.mem_cons.mp hlater with rfl | hlast
        · cases hupdate
          exact ⟨rfl, .inr ⟨_, _, rfl, hcompleted, rfl⟩⟩
        · exact absurd hupdate (haside _ _ _ _ hcompleted _ hlast _)

/-- Whose change was refused fails for that, and writes nothing. -/
theorem Deciding.refused_of_refusal (hdeciding : Deciding task id completed calls rest)
    (haside : Aside completed) {value : CertificateRequest} {revision : Nat} {e : CaError}
    (hrefused : ⟨task, .table .requests (.update id.text value revision), .error e⟩ ∈ calls) :
    calls.filter (·.isWrite) = [] ∧ ∃ effects, rest.Concludes (.error (.error e)) effects := by
  obtain ⟨-, ⟨found, effects, hevent, hwrites, hends⟩ | ⟨current, later, hevent, -, -⟩⟩ :=
    hdeciding.update_cases haside hrefused rfl
  · cases hevent
    exact ⟨hwrites, effects, hends⟩
  · cases hevent

/-- Who has changed the request has read it before, and goes on as its kind does. -/
theorem Deciding.completed_of_change (hdeciding : Deciding task id completed calls rest)
    (haside : Aside completed) {decided : CertificateRequest}
    (hchange : .change task .requests id.text decided firstRevision ∈ calls) :
    ∃ current later, completed current.value decided later rest ∧
      calls = reading task id (.ok (some current)) ::
        .change task .requests id.text decided firstRevision :: later := by
  obtain ⟨-, ⟨e, effects, hevent, -, -⟩ | ⟨current, later, -, hcompleted, hcalls⟩⟩ :=
    hdeciding.update_cases haside hchange rfl
  · cases hevent
  · exact ⟨current, later, hcompleted, hcalls⟩

/-- A decision changes its own request only. -/
theorem Deciding.eq_of_change (hdeciding : Deciding task id completed calls rest)
    (haside : Aside completed) {other : RequestId} {decided : CertificateRequest} {revision : Nat}
    (hchange : .change task .requests other.text decided revision ∈ calls) : other = id := by
  have hkey := (hdeciding.update_cases haside hchange rfl).1
  cases id
  cases other
  exact congrArg _ hkey

/-- Who has written anything has changed the request. -/
theorem Deciding.changed_of_write (hdeciding : Deciding task id completed calls rest)
    (hwrites : calls.filter (·.isWrite) ≠ []) :
    ∃ decided, .change task .requests id.text decided firstRevision ∈ calls := by
  cases hdeciding with
  | unread hfruitless => exact absurd rfl hwrites
  | unreadable e hends => exact absurd rfl hwrites
  | unknown hends => exact absurd rfl hwrites
  | late hlate hends => exact absurd rfl hwrites
  | considered hpending hfruitless => exact absurd rfl hwrites
  | refused e hpending hends => exact absurd rfl hwrites
  | accepted hpending hcompleted =>
      exact ⟨_, List.mem_cons_of_mem _ List.mem_cons_self⟩

end Consequences

section Conduct

variable {admits : Submission → Prop} {stores : Stores} {task : Nat} {w : World}
variable {id : RequestId} {completed : CertificateRequest → CertificateRequest → Account α}

/-- A pending request that was read is the one that was entered. -/
theorem entered_of_read {found : World} (hlaw : Law admits found)
    {current : Versioned CertificateRequest}
    (hfind : found.find? .requests id.text = some current)
    (hpending : current.value.status.isTerminal = false) :
    current.revision = firstRevision ∧
      ∃ clerk, .creation clerk .requests id.text current.value ∈ found.log := by
  have hkey := hlaw.1 id.text
  rw [hfind] at hkey
  have hwrites : ∀ event ∈ found.writes .requests id.text, event ∈ found.log :=
    fun event hevent => World.mem_log_of_mem_writes hevent
  generalize found.writes .requests id.text = writes at hkey hwrites
  cases hkey with
  | pending clerk hfiled => exact ⟨rfl, clerk, hwrites _ List.mem_cons_self⟩
  | decided clerk judge hfiled hdecision => simp [hdecision.isTerminal] at hpending

/-- Reads a request, which is decided already, or pending and at its first revision. -/
theorem keeps_find {next : Versioned CertificateRequest → Procedure α}
    (hcalls : w.calls task = [])
    (hlate : ∀ current (later : World), later.Reachable stores → Law admits later →
      later.calls task = [reading task id (.ok (some current))] →
      current.value.status.isTerminal →
        (next current).Keeps (Law admits) stores task (.ofAccount (Deciding task id completed))
          later)
    (hnext : ∀ current (later : World) clerk, later.Reachable stores → Law admits later →
      later.calls task = [reading task id (.ok (some current))] →
      current.value.status.isTerminal = false → current.revision = firstRevision →
      .creation clerk .requests id.text current.value ∈ later.log →
        (next current).Keeps (Law admits) stores task (.ofAccount (Deciding task id completed))
          later) :
    ((find id).bind next).Keeps (Law admits) stores task
      (.ofAccount (Deciding task id completed)) w := by
  apply Procedure.keeps_get steady_law hcalls (.unread trivial)
  · intro e later _ _ hsame
    exact Procedure.keeps_fail _ hsame (.unreadable e (.now 0))
  · intro found later hlaw hlater _ hlog hreachable hsame
    cases hfind : found.find? .requests id.text with
    | none =>
        rw [hfind] at hsame
        exact Procedure.keeps_fail _ hsame (.unknown (.now 0))
    | some current =>
        rw [hfind] at hsame
        cases hterminal : current.value.status.isTerminal with
        | true => exact hlate current later hreachable hlater hsame hterminal
        | false =>
            obtain ⟨hrevision, clerk, hentered⟩ := entered_of_read hlaw hfind hterminal
            exact hnext current later clerk hreachable hlater hsame hterminal hrevision
              (hlog.subset hentered)

/-- Writes a decision at the revision that was read. -/
theorem keeps_swap {current : Versioned CertificateRequest} {decided : CertificateRequest}
    {next : Nat → Procedure α} {clerk : Nat}
    (hcalls : w.calls task = [reading task id (.ok (some current))])
    (hpending : current.value.status.isTerminal = false)
    (hentered : .creation clerk .requests id.text current.value ∈ w.log)
    (hdecision : current.value.Decision decided)
    (hnext : ∀ revision (later : World), later.Reachable stores → Law admits later →
      later.calls task = [reading task id (.ok (some current)),
        .change task .requests id.text decided firstRevision] →
        (next revision).Keeps (Law admits) stores task (.ofAccount (Deciding task id completed))
          later) :
    ((Procedure.query .requests (.update id.text decided firstRevision)).bind next).Keeps
      (Law admits) stores task (.ofAccount (Deciding task id completed)) w := by
  apply Procedure.keeps_table hcalls (.considered hpending trivial)
  · intro found chance hlog hlaw
    exact hlaw.decide chance task clerk (hlog.subset hentered) hdecision
  · intro found later chance reply _ hlater hreply _ _ hreachable hsame
    rcases found.update_cases stores chance task .requests id.text decided firstRevision with
      ⟨e, -, herror, -⟩ | ⟨-, -, -, hok, -⟩
    · rw [herror] at hreply
      subst hreply
      exact Procedure.keeps_fail _ hsame (.refused e hpending (.now 0))
    · rw [hok] at hreply
      subst hreply
      exact hnext _ later hreachable hlater hsame

variable {signed : String → IssuedCertificate → Prop}

/-- Enters the certificate after the change was accepted. -/
theorem keeps_record {approval : Approval} {current : Versioned CertificateRequest}
    {decided : CertificateRequest} {issued : IssuedCertificate}
    (hcalls : w.calls task = [reading task approval.requestId (.ok (some current)),
      .change task .requests approval.requestId.text decided firstRevision])
    (hpending : current.value.status.isTerminal = false)
    (hgrant : Grant approval signed current.value decided issued) :
    ((Registry.record issued).bind fun _ => Procedure.done issued).Keeps (Law admits) stores task
      (.ofAccount (Deciding task approval.requestId (Approving task approval signed))) w := by
  apply Procedure.keeps_table hcalls (.accepted hpending (.unrecorded hgrant trivial))
  · intro found chance _ hlaw
    exact hlaw.enter chance task issued
  · intro found later chance reply _ _ hreply _ _ _ hsame
    rcases found.create_cases stores chance task .certificates issued.serialNumber.text issued with
      ⟨e, -, herror, -⟩ | ⟨-, hok, -⟩
    · rw [herror] at hreply
      subst hreply
      exact Procedure.keeps_fail _ hsame (.accepted hpending (.unrecordable e hgrant (.now 0)))
    · rw [hok] at hreply
      subst hreply
      exact Procedure.keeps_done _ hsame (.accepted hpending (.recorded hgrant (.now 0)))

theorem keeps_commit {approval : Approval} {current : Versioned CertificateRequest} {clerk : Nat}
    {issued : IssuedCertificate} (hsigned : signed current.value.csrPem issued)
    (hcalls : w.calls task = [reading task approval.requestId (.ok (some current))])
    (hpending : current.value.status.isTerminal = false)
    (hrevision : current.revision = firstRevision)
    (hentered : .creation clerk .requests approval.requestId.text current.value ∈ w.log) :
    (commit approval current issued).Keeps (Law admits) stores task
      (.ofAccount (Deciding task approval.requestId (Approving task approval signed))) w := by
  apply Procedure.keeps_quiet steady_law rfl hcalls (.considered hpending trivial)
  intro now later hlog hsame _ _
  obtain ⟨decided, happroved⟩ := CertificateRequest.markApproved_of_pending hpending issued
    approval.approver approval.comment now
  change ((Procedure.ofExcept (current.value.markApproved issued approval.approver approval.comment
    now)).bind _).Keeps _ _ _ _ _
  rw [happroved, hrevision]
  apply keeps_swap hsame hpending (hlog.subset hentered) (.approved _ _ _ now happroved)
  intro _ last _ _ hlast
  exact keeps_record hlast hpending ⟨hsigned, now, happroved⟩

theorem keeps_approve {sign : Signer} (maxDays : Nat) (approval : Approval)
    (hsign : ∀ csrPem,
      (sign csrPem approval.days (.request approval.requestId)).Quiet (signed csrPem))
    (hcalls : w.calls task = []) :
    (approve sign maxDays approval).Keeps (Law admits) stores task
      (.ofAccount (Deciding task approval.requestId (Approving task approval signed))) w := by
  unfold approve
  split
  · exact Procedure.keeps_fail _ hcalls (.unread nofun)
  · apply Procedure.keeps_quiet steady_law rfl hcalls (.unread trivial)
    intro _ later _ hsame _ _
    apply Procedure.Keeps.ensuring steady_law rfl
      (Deciding.ensuring rfl (Approving.ensuring rfl))
    apply keeps_find hsame
    · intro current found _ _ hread hterminal
      rw [CertificateRequest.ensurePending_of_isTerminal hterminal]
      exact Procedure.keeps_fail _ hread (.late hterminal (.now 0))
    · intro current found clerk hreachable hlaw hread hpending hrevision hentered
      rw [CertificateRequest.ensurePending_of_not_isTerminal hpending]
      apply (hsign _).keeps_bind steady_law hreachable hlaw hread
        (fun rest hrest => .considered hpending hrest)
      intro issued last hsigned hlog hlast _ _
      exact keeps_commit hsigned hlast hpending hrevision (hlog.subset hentered)

theorem keeps_reject (rejection : Rejection) (hcalls : w.calls task = []) :
    (reject rejection).Keeps (Law admits) stores task
      (.ofAccount (Deciding task rejection.requestId (Rejecting rejection))) w := by
  unfold reject
  split
  · exact Procedure.keeps_fail _ hcalls (.unread nofun)
  · apply Procedure.keeps_quiet steady_law rfl hcalls (.unread trivial)
    intro _ later _ hsame _ _
    apply Procedure.Keeps.ensuring steady_law rfl
      (Deciding.ensuring rfl (Rejecting.ensuring rfl))
    apply keeps_find hsame
    · intro current found _ _ hread hterminal
      apply Procedure.keeps_quiet steady_law rfl hread
      · refine .late hterminal (.later rfl fun now => (?_ : Procedure.Concludes _ 0 _))
        change ((Procedure.ofExcept (current.value.markRejected rejection.rejecter
          (Text.trim rejection.reason) now)).bind _).Concludes _ _
        rw [CertificateRequest.markRejected_of_isTerminal hterminal]
        exact .now 0
      · intro now last _ hlast _ _
        change ((Procedure.ofExcept (current.value.markRejected rejection.rejecter
          (Text.trim rejection.reason) now)).bind _).Keeps _ _ _ _ _
        rw [CertificateRequest.markRejected_of_isTerminal hterminal]
        exact Procedure.keeps_fail _ hlast (.late hterminal (.now 0))
    · intro current found clerk _ _ hread hpending hrevision hentered
      apply Procedure.keeps_quiet steady_law rfl hread (.considered hpending trivial)
      intro now last hlog hlast _ _
      obtain ⟨decided, hrejected⟩ := CertificateRequest.markRejected_of_pending hpending
        rejection.rejecter (Text.trim rejection.reason) now
      change ((Procedure.ofExcept (current.value.markRejected rejection.rejecter
        (Text.trim rejection.reason) now)).bind _).Keeps _ _ _ _ _
      rw [hrejected, hrevision]
      apply keeps_swap hlast hpending (hlog.subset hentered) (.rejected _ _ now hrejected)
      intro _ final _ _ hfinal
      exact Procedure.keeps_done _ hfinal (.accepted hpending (.rejected hrejected (.now 0)))

end Conduct

end Ledger

end CertAuthority
