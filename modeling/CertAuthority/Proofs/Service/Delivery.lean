import CertAuthority.Proofs.Office.Course
import CertAuthority.Proofs.Service.Conduct

/-!
# The certificates that are handed out

An approval writes its decision first and enters the certificate second.  If the second write is
refused, the first one stands: the approval has failed, and yet its request shows a certificate
that the register does not know.  This is the only way in which a certificate may be handed out
that cannot be revoked.
-/

namespace CertAuthority.Service

open Ledger (Law Record Entered Filed Deciding Approving Rejecting Grant reading)
open Versioned (firstRevision nextRevision)

/-- A certificate whose entry was refused. -/
def refusedEntry (task : Nat) (issued : IssuedCertificate) (e : CaError) : Event :=
  ⟨task, .table .certificates (.create issued.serialNumber.text issued), .error e⟩

/-- That a view of a request shows a certificate. -/
structure Shows (view : RequestView) (issued : IssuedCertificate) : Prop where
  pem : view.certificatePem = some issued.certificatePem
  serial : view.serialNumber = some issued.serialNumber
  expires : view.expiresAt = some issued.expiresAt

/-- What an approval of a request has left that ended in an error. -/
inductive Failed (s : Service) (past : List Event) (task : Nat) (id : RequestId)
    (f : Failure) : Prop where
  | untouched (hwrites : past.filter (·.isWrite) = [])
    (hnever : ∀ issued e, refusedEntry task issued e ∉ past)
  /-- The decision was written, and the certificate was refused. -/
  | halfway {decided : CertificateRequest} {issued : IssuedCertificate} {e : CaError}
    (hfailure : f = .error e) (hrefused : refusedEntry task issued e ∈ past)
    (hwrites : past.filter (·.isWrite) =
      [.change task .requests id.text decided firstRevision])
    (hshows : Shows (decided.view s.certificatePem) issued)

/-- How it stands with the certificate that a decided request shows, once its approval has
ended. -/
inductive Handed {s : Service} (o : Office s.desk) (id : RequestId) (r : CertificateRequest) :
    Prop where
  /-- The approval succeeded: its certificate is the one that is shown, and is entered. -/
  | entered {i : Nat} {approver : String} {days : Option Nat} {comment : String}
    {issued : IssuedCertificate}
    (hdecided : .change i .requests id.text r firstRevision ∈ o.world.past i)
    (hshows : Shows (r.view s.certificatePem) issued)
    (hended : o.Ended i (.approve id approver days comment) (.ok issued))
    (hfound : o.world.find? .certificates issued.serialNumber.text = some (.fresh issued))
  /-- The approval failed: its certificate is the one that is shown, and is not entered. -/
  | unentered {i : Nat} {approver : String} {days : Option Nat} {comment : String}
    {issued : IssuedCertificate} {e : CaError}
    (hdecided : .change i .requests id.text r firstRevision ∈ o.world.past i)
    (hshows : Shows (r.view s.certificatePem) issued)
    (hended : o.Ended i (.approve id approver days comment) (.error (.error e)))
    (hrefused : refusedEntry i issued e ∈ o.world.past i)
    (hothers : ∀ event ∈ o.world.writes .certificates issued.serialNumber.text, event.task ≠ i)

/-- The serial number that an errand calls unknown if there is no certificate under it. -/
def Errand.asks? : Errand → Option SerialNumber
  | .getCertificate serial | .certificateStatus serial | .revoke serial _ => some serial
  | _ => none

theorem shows_of_markApproved {r decided : CertificateRequest} {issued : IssuedCertificate}
    {approver comment : String} {now : Instant}
    (happroved : r.markApproved issued approver comment now = .ok decided) (ca : String) :
    Shows (decided.view ca) issued := by
  rw [(CertificateRequest.markApproved_eq happroved).2]
  exact ⟨rfl, rfl, rfl⟩

section Account

variable {task : Nat} {approval : Ledger.Approval} {signed : String → IssuedCertificate → Prop}
variable {calls : List Event} {rest : Procedure IssuedCertificate}

/-- Nothing is refused an entry that does not ask for it. -/
theorem refusedEntry_not_mem
    (hcalls : ∀ event ∈ calls, event.effect.writesTo .certificates = false)
    (issued : IssuedCertificate) (e : CaError) : refusedEntry task issued e ∉ calls := by
  intro hrefused
  cases hcalls _ hrefused

theorem failed_of_error (s : Service) {f : Failure}
    (hdeciding : Deciding task approval.requestId (Approving task approval signed) calls rest)
    (hended : rest.outcome? = some (.error f)) : Failed s calls task approval.requestId f := by
  cases hdeciding with
  | unread hfruitless => exact .untouched rfl (refusedEntry_not_mem (List.forall_mem_nil _))
  | unreadable e hends =>
      exact .untouched rfl (refusedEntry_not_mem (List.forall_mem_singleton.mpr rfl))
  | unknown hends =>
      exact .untouched rfl (refusedEntry_not_mem (List.forall_mem_singleton.mpr rfl))
  | late hterminal hends =>
      exact .untouched rfl (refusedEntry_not_mem (List.forall_mem_singleton.mpr rfl))
  | considered hpending hfruitless =>
      exact .untouched rfl (refusedEntry_not_mem (List.forall_mem_singleton.mpr rfl))
  | refused e hpending hends =>
      refine .untouched rfl (refusedEntry_not_mem (List.forall_mem_cons.mpr ⟨rfl, ?_⟩))
      exact List.forall_mem_singleton.mpr rfl
  | accepted hpending hcompleted =>
      cases hcompleted with
      | unrecorded hgrant hgoing =>
          cases rest with
          | done a => exact hgoing.elim
          | fail f => exact hgoing.elim
          | call e next => cases hended
      | recorded hgrant hends => cases hends.outcome_eq hended
      | unrecordable e hgrant hends =>
          cases hends.outcome_eq hended
          obtain ⟨now, happroved⟩ := hgrant.marked
          exact .halfway rfl (by simp [refusedEntry]) rfl
            (shows_of_markApproved happroved s.certificatePem)

/-- How an approval has ended that changed its request. -/
theorem outcome_of_change {decided : CertificateRequest}
    (hdeciding : Deciding task approval.requestId (Approving task approval signed) calls rest)
    (hchange : .change task .requests approval.requestId.text decided firstRevision ∈ calls)
    (hended : rest.outcome?.isSome) (ca : String) :
    ∃ issued, Shows (decided.view ca) issued ∧
      (rest.outcome? = some (.ok issued) ∧
          .creation task .certificates issued.serialNumber.text issued ∈ calls ∨
        ∃ e, rest.outcome? = some (.error (.error e)) ∧ refusedEntry task issued e ∈ calls ∧
          ∀ event ∈ calls, ∀ key, event.writesAt .certificates key = false) := by
  obtain ⟨current, later, hcompleted, rfl⟩ :=
    hdeciding.completed_of_change (Approving.aside task approval signed) hchange
  obtain ⟨outcome, houtcome⟩ := Option.isSome_iff_exists.mp hended
  cases hcompleted with
  | unrecorded hgrant hgoing =>
      cases rest with
      | done a => exact hgoing.elim
      | fail f => exact hgoing.elim
      | call e next => cases hended
  | @recorded issued _ _ hgrant hends =>
      obtain ⟨now, happroved⟩ := hgrant.marked
      refine ⟨issued, shows_of_markApproved happroved ca, .inl ⟨?_, by simp⟩⟩
      rw [houtcome, hends.outcome_eq houtcome]
  | @unrecordable issued e _ _ hgrant hends =>
      obtain ⟨now, happroved⟩ := hgrant.marked
      refine ⟨issued, shows_of_markApproved happroved ca, .inr ⟨e, ?_, by simp [refusedEntry], ?_⟩⟩
      · rw [houtcome, hends.outcome_eq houtcome]
      · intro event hevent key
        rcases List.mem_cons.mp hevent with rfl | hlater
        · rfl
        · rcases List.mem_cons.mp hlater with rfl | hlast
          · rfl
          · rw [List.mem_singleton.mp hlast]
            rfl

end Account

section Run

variable {s : Service} {stores : Stores} {o : Office s.desk} {id : RequestId} {i : Nat}

theorem clericalCalls_of_promise {errand : Errand} (herrand : errand.isClerical) {past : List Event}
    {rest : Procedure errand.Result} (hpromise : s.promise errand i past rest) :
    ∀ event ∈ past, event.effect.isCall → Ledger.Clerical Admitted event.effect := by
  intro event hevent hcall
  have hmem : event ∈ past.filter (·.effect.isCall) := List.mem_filter.mpr ⟨hevent, hcall⟩
  cases errand with
  | renew csrPem caller => cases herrand
  | approve id approver days comment => cases herrand
  | reject id rejecter reason => cases herrand
  | getCertificate serial => exact hpromise.1 event hmem
  | certificateStatus serial => exact hpromise.1 event hmem
  | revoke serial revokedBy => exact hpromise.1 event hmem
  | _ => exact hpromise event hmem

/-- Whoever has changed a request was to decide it. -/
theorem decides_of_change (habides : o.Abides (Law Admitted) stores s.promise)
    {decided : CertificateRequest} {revision : Nat}
    (hchange : .change i .requests id.text decided revision ∈ o.world.log) :
    (∃ approver days comment rest,
        o.tasks[i]? = some ⟨.approve id approver days comment, rest⟩) ∨
      ∃ rejecter reason rest, o.tasks[i]? = some ⟨.reject id rejecter reason, rest⟩ := by
  have hbound : i < o.tasks.length := habides.numbered _ hchange
  have htask : o.tasks[i]? = some o.tasks[i] := List.getElem?_eq_getElem hbound
  generalize o.tasks[i] = task at htask
  obtain ⟨errand, rest⟩ := task
  have hpromise := (habides.tasks i errand rest htask).promised
  have hpast := World.mem_past_iff.mpr ⟨hchange, rfl⟩
  have hcalls := World.mem_calls_iff.mpr ⟨hpast, rfl⟩
  cases hclerical : errand.isClerical with
  | true =>
      rcases clericalCalls_of_promise hclerical hpromise _ hpast rfl with
        ⟨hother, -⟩ | ⟨_, _, _, -, hcreation⟩
      · cases hother
      · cases hcreation
  | false =>
      cases errand with
      | renew csrPem caller => cases hpromise.aside _ hcalls
      | approve other approver days comment =>
          obtain rfl := Deciding.eq_of_change hpromise (Approving.aside _ _ _) hcalls
          exact .inl ⟨approver, days, comment, rest, htask⟩
      | reject other rejecter reason =>
          obtain rfl := Deciding.eq_of_change hpromise (Rejecting.aside _) hcalls
          exact .inr ⟨rejecter, reason, rest, htask⟩
      | _ => cases hclerical

theorem abides (s : Service) (stores : Stores) (moves : List (Move s.desk)) :
    (Office.run stores moves).Abides (Law Admitted) stores s.promise :=
  Office.abides_run (desk_keeps s stores) moves

/-- An entry for a certificate is there for ever. -/
theorem entry_stays {moves : List (Move s.desk)} {key : String}
    {entry : Versioned IssuedCertificate}
    (hentry : (Office.run stores moves).world.find? .certificates key = some entry)
    (more : List (Move s.desk)) :
    (Office.run stores (moves ++ more)).world.find? .certificates key = some entry := by
  rw [Office.run_append]
  apply (abides s stores moves).lawful.certificates.stays _ (Office.log_prefix_after stores _ more)
    hentry
  rw [← Office.run_append]
  exact (abides s stores (moves ++ more)).lawful.certificates

theorem asking_of_promise {errand : Errand} {serial : SerialNumber}
    (hasks : errand.asks? = some serial) {past : List Event} {rest : Procedure errand.Result}
    (hpromise : s.promise errand i past rest) {text : String}
    (hrest : rest = .fail (.error (.unknownSerial text))) : missing i serial ∈ past := by
  cases errand with
  | getCertificate other =>
      cases hasks
      exact (List.mem_filter.mp (hpromise.2 text hrest)).1
  | certificateStatus other =>
      cases hasks
      exact (List.mem_filter.mp (hpromise.2 text hrest)).1
  | revoke other revokedBy =>
      cases hasks
      exact (List.mem_filter.mp (hpromise.2 text hrest)).1
  | _ => cases hasks

/-- Whoever asks about a certificate that is entered is never told that it is unknown. -/
theorem known_of_entry {moves : List (Move s.desk)} {serial : SerialNumber}
    {entry : Versioned IssuedCertificate}
    (hentry : (Office.run stores moves).world.find? .certificates serial.text = some entry)
    {more : List (Move s.desk)} (hlater : (Office.run stores moves).tasks.length ≤ i)
    {errand : Errand} (hasks : errand.asks? = some serial) (text : String) :
    ¬ (Office.run stores (moves ++ more)).Ended i errand
      (.error (.error (.unknownSerial text))) := by
  rintro ⟨rest, htask, houtcome⟩
  have hrest := Procedure.eq_fail_of_outcome? houtcome
  have hpromise := ((abides s stores (moves ++ more)).tasks i errand rest htask).promised
  have hmissing := (World.mem_past_iff.mp (asking_of_promise hasks hpromise hrest)).1
  rw [Office.run_append] at hmissing
  -- When it was asked the entry was there, so that the table did not answer that it is missing.
  obtain ⟨before, -, hnone, -⟩ := Office.read_later (abides s stores moves).numbered hlater hmissing
  rw [← Office.run_append, entry_stays hentry before] at hnone
  cases hnone

/-- A task that asks for a certificate that is not there ends for that. -/
theorem ended_of_absent {errand : s.desk.Operation} {serial : SerialNumber}
    {next : Except CaError (Option (Versioned IssuedCertificate)) →
      Procedure (s.desk.Result errand)}
    (htask : o.tasks[i]? = some ⟨errand, .call (.table .certificates (.get serial.text)) next⟩)
    (hnext : next (.ok none) = .fail (.error (.unknownSerial serial.text)))
    (habsent : o.world.find? .certificates serial.text = none) {chance : Chance}
    (hfault : chance.fault = none) :
    (o.advance stores i chance).Ended i errand (.error (.error (.unknownSerial serial.text))) := by
  rw [Office.advance_call stores htask]
  refine ⟨_, Office.found_set_self htask _, ?_⟩
  have hreply : o.world.reply stores chance (.table .certificates (.get serial.text)) = .ok none :=
    (World.reply_of_faultless stores hfault _).trans (congrArg Except.ok habsent)
  exact congrArg Procedure.outcome? ((congrArg next hreply).trans hnext)

theorem status_unknown_of_absent {serial : SerialNumber}
    (habsent : o.world.find? .certificates serial.text = none) {chance later : Chance}
    (hfault : later.fault = none) :
    (o.after stores [.start (.certificateStatus serial), .advance o.tasks.length chance,
      .advance o.tasks.length later]).Ended o.tasks.length (.certificateStatus serial)
        (.error (.error (.unknownSerial serial.text))) := by
  have hstarted := Office.task_start stores o (.certificateStatus serial)
  have hread := Office.advance_call stores hstarted chance
  change ((Office.advance stores _ o.tasks.length chance).advance stores o.tasks.length later).Ended
    _ _ _
  rw [hread]
  apply ended_of_absent (Office.found_set_self hstarted _)
  · rfl
  · exact habsent
  · exact hfault

theorem revoke_unknown_of_absent {serial : SerialNumber} {revokedBy : String}
    (hrevoker : Text.isAllBlank revokedBy = false)
    (habsent : o.world.find? .certificates serial.text = none) {chance : Chance}
    (hfault : chance.fault = none) :
    (o.after stores [.start (.revoke serial revokedBy), .advance o.tasks.length chance]).Ended
      o.tasks.length (.revoke serial revokedBy)
        (.error (.error (.unknownSerial serial.text))) := by
  have hstarted := Office.task_start stores o (.revoke serial revokedBy)
  change (Office.advance stores _ o.tasks.length chance).Ended _ _ _
  have hprocedure : s.desk.procedure (.revoke serial revokedBy) =
      Registry.revoke serial revokedBy := by
    change s.revoke serial revokedBy = _
    rw [revoke, hrevoker]
    rfl
  rw [hprocedure] at hstarted
  exact ended_of_absent hstarted rfl habsent hfault

/-- The account of an approval. -/
theorem deciding_of_approve (habides : o.Abides (Law Admitted) stores s.promise)
    {approver : String} {days : Option Nat} {comment : String} {rest : Procedure IssuedCertificate}
    (htask : o.tasks[i]? = some ⟨.approve id approver days comment, rest⟩) :
    Deciding i (s.approval id approver days comment).requestId
      (Approving i (s.approval id approver days comment)
        (s.Signed (s.approval id approver days comment).days (.request id)))
      (o.world.calls i) rest :=
  (habides.tasks i (.approve id approver days comment) rest htask).promised

/-- The certificate of an approval that has changed its request and has ended. -/
theorem handed_of_approve (habides : o.Abides (Law Admitted) stores s.promise)
    {approver : String} {days : Option Nat} {comment : String} {rest : Procedure IssuedCertificate}
    (htask : o.tasks[i]? = some ⟨.approve id approver days comment, rest⟩)
    (hended : rest.outcome?.isSome) {decided : CertificateRequest}
    (hdecided : .change i .requests id.text decided firstRevision ∈ o.world.past i) :
    Handed o id decided := by
  have hchange := World.mem_calls_iff.mpr ⟨hdecided, rfl⟩
  obtain ⟨issued, hshows, ⟨houtcome, hcreation⟩ | ⟨e, houtcome, hrefused, hothers⟩⟩ :=
    outcome_of_change (deciding_of_approve habides htask) hchange hended s.certificatePem
  · apply Handed.entered hdecided hshows ⟨rest, htask, houtcome⟩
    exact habides.lawful.certificates.find_of_creation (World.mem_log_of_mem_calls hcreation)
  · apply Handed.unentered hdecided hshows ⟨rest, htask, houtcome⟩
      (World.mem_calls_iff.mp hrefused).1
    intro event hevent htaskOf
    have hown := World.mem_calls_of_mem_writes hevent
    rw [htaskOf] at hown
    have hat := (List.mem_filter.mp hevent).2
    rw [hothers event hown] at hat
    cases hat

/-- A rejected request shows no certificate, since it had none when it was entered. -/
theorem certificatePem_of_rejected {key : String} {r decided : CertificateRequest}
    (hfiled : Filed Admitted key r) (hdecision : r.Decision decided)
    (hstatus : decided.status = .rejected) (ca : String) :
    (decided.view ca).certificatePem = none := by
  cases hdecision with
  | approved issued approver comment now happroved =>
      rw [(CertificateRequest.markApproved_eq happroved).2] at hstatus
      cases hstatus
  | rejected rejecter reason now hrejected =>
      obtain ⟨_, _, _, _, _, rfl⟩ := hfiled
      rw [(CertificateRequest.markRejected_eq hrejected).2]
      rfl

/-- A request that was changed by a rejection is rejected. -/
theorem status_of_reject (habides : o.Abides (Law Admitted) stores s.promise)
    {rejecter reason : String} {rest : Procedure Unit}
    (htask : o.tasks[i]? = some ⟨.reject id rejecter reason, rest⟩) {decided : CertificateRequest}
    (hdecided : .change i .requests id.text decided firstRevision ∈ o.world.past i) :
    decided.status = .rejected := by
  have hpromise := (habides.tasks i (.reject id rejecter reason) rest htask).promised
  obtain ⟨current, later, hrejecting, -⟩ := Deciding.completed_of_change hpromise
    (Rejecting.aside _) (World.mem_calls_iff.mpr ⟨hdecided, rfl⟩)
  cases hrejecting with
  | rejected hrejected hends => rw [(CertificateRequest.markRejected_eq hrejected).2]

theorem handed_of_shown (habides : o.Abides (Law Admitted) stores s.promise)
    (hquiescent : o.Quiescent) {entry : Versioned CertificateRequest}
    (hentry : o.world.find? .requests id.text = some entry) {pem : String}
    (hpem : (entry.value.view s.certificatePem).certificatePem = some pem) :
    Handed o id entry.value := by
  have hkey := habides.lawful.1 id.text
  rw [hentry] at hkey
  generalize hwrites : o.world.writes .requests id.text = writes at hkey
  cases hkey with
  | pending clerk hfiled =>
      obtain ⟨_, _, _, _, _, rfl⟩ := hfiled
      cases hpem
  | @decided clerk judge r decided hfiled hdecision =>
      have hchange : .change judge .requests id.text decided firstRevision ∈ o.world.log := by
        apply World.mem_log_of_mem_writes
        rw [hwrites]
        exact List.mem_cons_of_mem _ List.mem_cons_self
      have hdecided := World.mem_past_iff.mpr ⟨hchange, rfl⟩
      rcases decides_of_change habides hchange with
        ⟨approver, days, comment, rest, htask⟩ | ⟨rejecter, reason, rest, htask⟩
      · exact handed_of_approve habides htask (hquiescent _ (List.mem_of_getElem? htask)) hdecided
      · have hstatus := status_of_reject habides htask hdecided
        rw [certificatePem_of_rejected hfiled hdecision hstatus] at hpem
        cases hpem

/-- What is certain of the certificates that are handed out, after any moves. -/
structure Delivery (s : Service) (stores : Stores) (moves : List (Move s.desk)) : Prop where
  /-- An approval that ended in an error has left nothing, or it was refused the entry of its
  certificate. -/
  failed : ∀ i id approver days comment f,
    (Office.run stores moves).Ended i (.approve id approver days comment) (.error f) →
      Failed s ((Office.run stores moves).world.calls i) i id f
  /-- If nothing is under way, every certificate that a request shows was entered by its approval,
  or refused to it. -/
  shown : (Office.run stores moves).Quiescent →
    ∀ (id : RequestId) entry, (Office.run stores moves).world.find? .requests id.text = some entry →
      ∀ pem serial, (entry.value.view s.certificatePem).certificatePem = some pem →
        (entry.value.view s.certificatePem).serialNumber = some serial →
          Handed (Office.run stores moves) id entry.value
  /-- Nobody who asks later is told that a certificate is unknown that is entered. -/
  known : ∀ (serial : SerialNumber) entry,
    (Office.run stores moves).world.find? .certificates serial.text = some entry →
      ∀ errand : Errand, errand.asks? = some serial → ∀ more i text,
        (Office.run stores moves).tasks.length ≤ i →
          ¬ (Office.run stores (moves ++ more)).Ended i errand
            (.error (.error (.unknownSerial text)))
  /-- Whoever asks for the status of one that is not entered is told that it is unknown. -/
  unknown : ∀ (serial : SerialNumber),
    (Office.run stores moves).world.find? .certificates serial.text = none →
      ∀ i, i = (Office.run stores moves).tasks.length → ∀ chance later, later.fault = none →
        (Office.run (I := s.desk) stores (moves ++ [.start (.certificateStatus serial),
          .advance i chance, .advance i later])).Ended i (.certificateStatus serial)
            (.error (.error (.unknownSerial serial.text)))
  /-- Whoever would revoke one that is not entered is told that it is unknown. -/
  irrevocable : ∀ (serial : SerialNumber),
    (Office.run stores moves).world.find? .certificates serial.text = none →
      ∀ i, i = (Office.run stores moves).tasks.length →
        ∀ revokedBy, Text.isAllBlank revokedBy = false → ∀ chance, chance.fault = none →
          (Office.run (I := s.desk) stores (moves ++ [.start (.revoke serial revokedBy),
            .advance i chance])).Ended i (.revoke serial revokedBy)
              (.error (.error (.unknownSerial serial.text)))

/-- A certificate is handed out that cannot be revoked if and only if its approval wrote the
decision and was then refused the entry; all others are entered for ever. -/
theorem delivery (s : Service) (stores : Stores) (moves : List (Move s.desk)) :
    Delivery s stores moves where
  failed := by
    rintro i id approver days comment f ⟨rest, htask, houtcome⟩
    exact failed_of_error s (deciding_of_approve (abides s stores moves) htask) houtcome
  shown := by
    intro hquiescent id entry hentry pem serial hpem _
    exact handed_of_shown (abides s stores moves) hquiescent hentry hpem
  known := by
    intro serial entry hentry errand hasks more i text hlater
    exact known_of_entry hentry hlater hasks text
  unknown := by
    rintro serial habsent i rfl chance later hfault
    rw [Office.run_append]
    exact status_unknown_of_absent habsent hfault
  irrevocable := by
    rintro serial habsent i rfl revokedBy hrevoker chance hfault
    rw [Office.run_append]
    exact revoke_unknown_of_absent hrevoker habsent hfault

end Run

end CertAuthority.Service
