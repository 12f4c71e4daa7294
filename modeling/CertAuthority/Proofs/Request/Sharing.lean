import CertAuthority.Proofs.Request.Decision

/-!
# Ledgers that share their tables

Any number of ledgers work on the same requests, with signers of their own, and any call to a table
and any signature may fail.  Their locks do not see each other; that a request is decided once is
owed to the revision at which the decision is written.
-/

namespace CertAuthority.Ledger

open Versioned (firstRevision nextRevision)

/-- A signer that comes to an end and asks nothing of the tables. -/
structure QuietSigner where
  sign : Signer
  quiet : ∀ csrPem days issuer, (sign csrPem days issuer).Quiet fun _ => True

/-- The signer of an authority. -/
def QuietSigner.ofAuthority (a : Authority) : QuietSigner where
  sign := a.sign
  quiet csrPem days issuer := (a.quiet_sign csrPem days issuer).mono fun _ _ => trivial

/-- What is asked of a ledger, with the signer and the limit that it has. -/
inductive Errand where
  | submit (s : Submission)
  | approve (signer : QuietSigner) (maxDays : Nat) (approval : Approval)
  | reject (rejection : Rejection)

/-- The desk of all ledgers. -/
def desk : Interface where
  Operation := Errand
  Result
    | .submit _ => RequestId
    | .approve _ _ _ => IssuedCertificate
    | .reject _ => Unit
  procedure
    | .submit s => submit s
    | .approve signer maxDays approval => approve signer.sign maxDays approval
    | .reject rejection => reject rejection

/-- The request that an errand is to decide. -/
def Errand.decides? : Errand → Option RequestId
  | .submit _ => none
  | .approve _ _ approval => some approval.requestId
  | .reject rejection => some rejection.requestId

/-- Every submission is admitted. -/
def anySubmission : Submission → Prop := fun _ => True

/-- Every certificate may be signed for every request. -/
def anyCertificate : String → IssuedCertificate → Prop := fun _ _ => True

/-- What each errand promises. -/
def promise : desk.Promises
  | .submit _, _ => fun past _ => ∀ event ∈ past, Clerical anySubmission event.effect
  | .approve _ _ approval, task =>
    .ofAccount (Deciding task approval.requestId (Approving task approval anyCertificate))
  | .reject rejection, task => .ofAccount (Deciding task rejection.requestId (Rejecting rejection))

theorem desk_keeps (stores : Stores) : desk.Keeps (Law anySubmission) stores promise where
  empty := law_empty
  start := by
    intro operation task w _ _ hpast
    cases operation with
    | submit s =>
        apply (submit_clerical trivial).keeps fun w hlaw chance e he => hlaw.clerical chance task he
        rw [hpast]
        simp
    | approve signer maxDays approval =>
        exact keeps_approve maxDays approval (fun _ => signer.quiet _ _ _)
          (by rw [World.calls, hpast]; rfl)
    | reject rejection => exact keeps_reject rejection (by rw [World.calls, hpast]; rfl)
  again := by
    intro operation task w _ _ hpromise
    cases operation with
    | submit s =>
        exact (submit_clerical trivial).keeps
          (fun w hlaw chance e he => hlaw.clerical chance task he) hpromise
    | approve signer maxDays approval =>
        exact absurd hpromise (Deciding.finished Approving.finished)
    | reject rejection => exact absurd hpromise (Deciding.finished Rejecting.finished)

section Run

variable {stores : Stores} {s : Office desk} {id : RequestId} {i : Nat} {operation : Errand}
variable {rest : Procedure (desk.Result operation)}

/-- The changes of a request that were accepted. -/
def decisions (w : World) (id : RequestId) : List Event :=
  (w.writes .requests id.text).filter (·.isChange)

/-- Who is to decide a request tells so of its calls. -/
theorem deciding_of_task (habides : s.Abides (Law anySubmission) stores promise)
    (htask : s.tasks[i]? = some ⟨operation, rest⟩) (hdecides : operation.decides? = some id) :
    ∃ completed, Aside completed ∧ Deciding i id completed (s.world.calls i) rest := by
  have hpromise := (habides.tasks i operation rest htask).promised
  cases operation with
  | submit s => cases hdecides
  | approve signer maxDays approval =>
      cases hdecides
      exact ⟨_, Approving.aside i approval anyCertificate, hpromise⟩
  | reject rejection =>
      cases hdecides
      exact ⟨_, Rejecting.aside rejection, hpromise⟩

/-- Whoever has changed a request was to decide it. -/
theorem decides_of_change (habides : s.Abides (Law anySubmission) stores promise)
    {decided : CertificateRequest} {revision : Nat}
    (hchange : .change i .requests id.text decided revision ∈ s.world.log) :
    ∃ task, s.tasks[i]? = some task ∧ task.operation.decides? = some id := by
  have hbound : i < s.tasks.length := habides.numbered _ hchange
  have htask : s.tasks[i]? = some s.tasks[i] := List.getElem?_eq_getElem hbound
  refine ⟨s.tasks[i], htask, ?_⟩
  generalize s.tasks[i] = task at htask ⊢
  obtain ⟨operation, rest⟩ := task
  have hpast : .change i .requests id.text decided revision ∈ s.world.past i :=
    World.mem_past_iff.mpr ⟨hchange, rfl⟩
  cases hdecides : operation.decides? with
  | none =>
      cases operation with
      | submit submission =>
          have hpromise := (habides.tasks i _ rest htask).promised
          rcases hpromise _ hpast with ⟨hother, -⟩ | ⟨_, _, _, -, hcreation⟩
          · cases hother
          · cases hcreation
      | approve signer maxDays approval => cases hdecides
      | reject rejection => cases hdecides
  | some found =>
      obtain ⟨completed, haside, hdeciding⟩ := deciding_of_task habides htask hdecides
      have hcall : .change i .requests id.text decided revision ∈ s.world.calls i :=
        World.mem_calls_iff.mpr ⟨hpast, rfl⟩
      rw [hdeciding.eq_of_change haside hcall]

/-- From here on a task writes nothing, and it has failed with an error as soon as it has had its
moves. -/
def Loses (stores : Stores) (moves : List (Move desk)) (i : Nat) (operation : Errand)
    (e : CaError) : Prop :=
  ∃ count, ∀ more,
    ((Office.run stores (moves ++ more)).world.past i).filter (·.isWrite) = [] ∧
    (count ≤ more.countP (Move.isBy i) →
      (Office.run stores (moves ++ more)).Ended i operation (.error (.error e)))

theorem loses_of_concludes {moves : List (Move desk)} {e : CaError}
    (htask : (Office.run stores moves).tasks[i]? = some ⟨operation, rest⟩)
    (hconcludes : ∀ more later, (Office.run stores (moves ++ more)).tasks[i]? =
        some ⟨operation, later⟩ →
      ((Office.run stores (moves ++ more)).world.calls i).filter (·.isWrite) = [] ∧
        ∃ effects, later.Concludes (.error (.error e)) effects) :
    Loses stores moves i operation e := by
  have hnow := hconcludes [] rest (by rw [List.append_nil, htask])
  obtain ⟨-, count, hends⟩ := hnow
  refine ⟨count, fun more => ?_⟩
  constructor
  · obtain ⟨later, hlater, -⟩ := Office.task_after stores htask more
    rw [← Office.run_append] at hlater
    rw [← World.filter_isWrite_calls]
    exact (hconcludes more later hlater).1
  · intro hcount
    rw [Office.run_append]
    obtain ⟨found, rfl, hended⟩ := Office.ended_of_failsWithin more htask
      (hends.failsWithin (fun _ => True) stores _) (fun _ _ => trivial) hcount
    exact hended

/-- What is certain of a request after some moves, whatever moves follow. -/
structure DecidedOnce (stores : Stores) (moves : List (Move desk)) (id : RequestId) : Prop where
  /-- At most one change was accepted, of somebody who was to decide the request.  It is the only
  one for ever, and what it wrote stands. -/
  once : decisions (Office.run stores moves).world id = [] ∨
    ∃ judge decided task,
      (Office.run stores moves).tasks[judge]? = some task ∧ task.operation.decides? = some id ∧
      ∀ more,
        decisions (Office.run stores (moves ++ more)).world id =
          [.change judge .requests id.text decided firstRevision] ∧
        (Office.run stores (moves ++ more)).world.find? .requests id.text =
          some ⟨decided, nextRevision firstRevision⟩
  /-- A request that is there stays as it was submitted, and nothing but the decision of a pending
  request makes a difference to it. -/
  stays : ∀ entry, (Office.run stores moves).world.find? .requests id.text = some entry →
    ∀ more, ∃ later,
      (Office.run stores (moves ++ more)).world.find? .requests id.text = some later ∧
      later.value.submitted = entry.value.submitted ∧
      (later = entry ∨ entry.value.status.isTerminal = false ∧
        ∃ judge, decisions (Office.run stores (moves ++ more)).world id =
          [.change judge .requests id.text later.value firstRevision])
  /-- Who was to decide the request and did not change it has written nothing. -/
  idle : ∀ i operation rest, (Office.run stores moves).tasks[i]? = some ⟨operation, rest⟩ →
    operation.decides? = some id →
    (∀ event ∈ decisions (Office.run stores moves).world id, event.task ≠ i) →
      ((Office.run stores moves).world.past i).filter (·.isWrite) = []
  /-- Who has read the request as decided fails for that. -/
  late : ∀ i operation rest, (Office.run stores moves).tasks[i]? = some ⟨operation, rest⟩ →
    operation.decides? = some id →
    ∀ current, reading i id (.ok (some current)) ∈ (Office.run stores moves).world.past i →
      current.value.status.isTerminal →
        Loses stores moves i operation
          (.invalidTransition current.value.requestId.text current.value.status.text)
  /-- Whose change was refused fails for that, which is a conflict unless the table failed. -/
  refused : ∀ i operation rest, (Office.run stores moves).tasks[i]? = some ⟨operation, rest⟩ →
    operation.decides? = some id →
    ∀ value revision e,
      ⟨i, .table .requests (.update id.text value revision), .error e⟩ ∈
          (Office.run stores moves).world.past i →
        Loses stores moves i operation e ∧ (stores = .reliable → e = .conflict id.text)
  /-- Who writes at a revision that has passed fails with a conflict, unless the table fails. -/
  beaten : ∀ i operation value revision next, (Office.run stores moves).tasks[i]? =
      some ⟨operation, .call (.table .requests (.update id.text value revision)) next⟩ →
    operation.decides? = some id →
    (∀ held, (Office.run stores moves).world.find? .requests id.text = some held →
      held.revision ≠ revision) →
    ∀ chance, chance.fault = none →
      Loses stores (moves ++ [.advance i chance]) i operation (.conflict id.text)

theorem abides (stores : Stores) (moves : List (Move desk)) :
    (Office.run stores moves).Abides (Law anySubmission) stores promise :=
  Office.abides_run (desk_keeps stores) moves

theorem writes_grown (stores : Stores) (moves more : List (Move desk)) (name : TableName)
    (key : String) : (Office.run stores moves).world.writes name key <+:
      (Office.run stores (moves ++ more)).world.writes name key := by
  rw [Office.run_append]
  exact (Office.log_prefix_after stores _ more).filter _

theorem calls_subset (stores : Stores) (moves more : List (Move desk)) (i : Nat) :
    (Office.run stores moves).world.calls i ⊆
      (Office.run stores (moves ++ more)).world.calls i := by
  rw [Office.run_append]
  exact (((Office.log_prefix_after stores _ more).filter _).filter _).subset

theorem decision_stands (stores : Stores) (moves : List (Move desk)) (id : RequestId) :
    decisions (Office.run stores moves).world id = [] ∨
      ∃ judge decided task,
        (Office.run stores moves).tasks[judge]? = some task ∧ task.operation.decides? = some id ∧
        ∀ more,
          decisions (Office.run stores (moves ++ more)).world id =
            [.change judge .requests id.text decided firstRevision] ∧
          (Office.run stores (moves ++ more)).world.find? .requests id.text =
            some ⟨decided, nextRevision firstRevision⟩ := by
  have hlaw (later : List (Move desk)) := (abides stores later).lawful.1 id.text
  rcases (hlaw moves).changes with hnone | ⟨judge, decided, hfind, hterminal, hchange⟩
  · exact .inl hnone
  · have hmem : .change judge .requests id.text decided firstRevision ∈
        decisions (Office.run stores moves).world id := by
      rw [decisions, hchange]
      exact List.mem_cons_self
    obtain ⟨task, htask, hdecides⟩ := decides_of_change (abides stores moves)
      (World.mem_log_of_mem_writes (List.mem_filter.mp hmem).1)
    refine .inr ⟨judge, decided, task, htask, hdecides, fun more => ?_⟩
    have hlater : .change judge .requests id.text decided firstRevision ∈
        decisions (Office.run stores (moves ++ more)).world id :=
      ((writes_grown stores moves more .requests id.text).filter _).subset hmem
    rcases (hlaw (moves ++ more)).changes with hnone | ⟨other, found, hfound, -, honly⟩
    · rw [decisions, hnone] at hlater
      cases hlater
    · rw [decisions, honly, List.mem_singleton] at hlater
      cases hlater
      exact ⟨honly, hfound⟩

theorem loses_of_refusal {moves : List (Move desk)}
    (htask : (Office.run stores moves).tasks[i]? = some ⟨operation, rest⟩)
    (hdecides : operation.decides? = some id) {value : CertificateRequest} {revision : Nat}
    {e : CaError} (hrefused : ⟨i, .table .requests (.update id.text value revision), .error e⟩ ∈
      (Office.run stores moves).world.past i) : Loses stores moves i operation e := by
  apply loses_of_concludes htask
  intro more later hlater
  obtain ⟨completed, haside, hdeciding⟩ :=
    deciding_of_task (abides stores (moves ++ more)) hlater hdecides
  exact hdeciding.refused_of_refusal haside
    (calls_subset stores moves more i (World.mem_calls_iff.mpr ⟨hrefused, rfl⟩))

/-- Of all who are to decide a request at most one changes it, and the others fail without a
trace, those that come too late for that reason. -/
theorem decided_once (stores : Stores) (moves : List (Move desk)) (id : RequestId) :
    DecidedOnce stores moves id where
  once := decision_stands stores moves id
  stays := by
    intro entry hentry more
    exact ((abides stores moves).lawful.1 id.text).later
      ((abides stores (moves ++ more)).lawful.1 id.text)
      (writes_grown stores moves more .requests id.text) hentry
  idle := by
    intro i operation rest htask hdecides hothers
    obtain ⟨completed, -, hdeciding⟩ := deciding_of_task (abides stores moves) htask hdecides
    rw [← World.filter_isWrite_calls]
    by_contra hwrites
    obtain ⟨decided, hchange⟩ := hdeciding.changed_of_write hwrites
    have hlog := World.mem_log_of_mem_calls hchange
    have hmem : .change i .requests id.text decided firstRevision ∈
        decisions (Office.run stores moves).world id :=
      List.mem_filter.mpr ⟨List.mem_filter.mpr ⟨hlog, by simp⟩, rfl⟩
    exact hothers _ hmem rfl
  late := by
    intro i operation rest htask hdecides current hread hterminal
    apply loses_of_concludes htask
    intro more later hlater
    obtain ⟨completed, haside, hdeciding⟩ :=
      deciding_of_task (abides stores (moves ++ more)) hlater hdecides
    exact hdeciding.late_of_reading haside
      (calls_subset stores moves more i (World.mem_calls_iff.mpr ⟨hread, rfl⟩)) hterminal
  refused := by
    intro i operation rest htask hdecides value revision e hrefused
    refine ⟨loses_of_refusal htask hdecides hrefused, ?_⟩
    rintro rfl
    exact (abides .reliable moves).reachable.conflict_of_refused (World.mem_past_iff.mp hrefused).1
  beaten := by
    intro i operation value revision next htask hdecides hstale chance hfault
    have hreply := World.reply_update_of_stale stores hfault hstale value
    have hadvanced := (Office.run_append stores moves [.advance i chance]).trans
      (Office.advance_call stores htask chance)
    have hlater : (Office.run stores (moves ++ [.advance i chance])).tasks[i]? =
        some ⟨operation, next (.error (.conflict id.text))⟩ := by
      rw [hadvanced, hreply]
      exact Office.found_set_self htask _
    apply loses_of_refusal hlater hdecides
    rw [hadvanced, World.mem_past_iff, ← hreply]
    exact ⟨List.mem_append_right _ List.mem_cons_self, rfl⟩

/-- The ledgers of any number of authorities are among them. -/
example (a : Authority) (maxDays : Nat) (approval : Approval) :
    desk.procedure (.approve (.ofAuthority a) maxDays approval) =
      approve a.sign maxDays approval :=
  rfl

end Run

end CertAuthority.Ledger
