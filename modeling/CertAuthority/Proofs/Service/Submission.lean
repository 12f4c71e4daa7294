import CertAuthority.Proofs.Service.Delivery
import CertAuthority.Proofs.Token.Spending

/-!
# Requests and their tokens

A submission is checked, then it spends its token, and only then is its request entered.  Tokens
that were used are neither changed nor removed, so the token of every request stands as it was
spent for it, and no other request has spent it.
-/

namespace CertAuthority

theorem SubjectIdentity.of_requireUsertype {identity : SubjectIdentity} {unit : String}
    (hunit : identity.requireUsertype = .ok unit) :
    identity.organizationalUnit = some unit ∧ unit ≠ "" := by
  unfold requireUsertype at hunit
  split at hunit
  · next found hfound =>
      split at hunit
      · cases hunit
      · next hnonempty =>
          cases hunit
          exact ⟨hfound, hnonempty⟩
  · cases hunit

namespace Service

open Tokens (anything)
open Versioned (firstRevision nextRevision)

/-- What a submission has written: nothing; or its token, as used; or its token and then its
request.  It is begun anew only while it has written nothing, and ends well only with both. -/
inductive Submitting (s : Service) (task : Nat) (csrPem token : String) (source : IpAddress)
    (agentInfo : Json) : List Event → Procedure RequestId → Prop where
  | idle {rest : Procedure RequestId} (hrest : ∀ id, rest ≠ .done id) :
    Submitting s task csrPem token source agentInfo [] rest
  | paid {csr : ValidatedCsr} {tokenId : TokenId} {used : BootstrapToken}
    {rest : Procedure RequestId}
    (hcheck : s.checkSubmission csrPem token agentInfo = .ok (csr, tokenId))
    (hrest : rest.Fruitless) :
    Submitting s task csrPem token source agentInfo
      [.change task .tokens tokenId.text used firstRevision] rest
  | filed {csr : ValidatedCsr} {tokenId : TokenId} {used : BootstrapToken} {id : RequestId}
    {now : Instant}
    (hcheck : s.checkSubmission csrPem token agentInfo = .ok (csr, tokenId)) :
    Submitting s task csrPem token source agentInfo
      [.change task .tokens tokenId.text used firstRevision, .creation task .requests id.text
        (Ledger.Submission.entry ⟨csr.pem, csr.identity, source, tokenId, agentInfo⟩ id now)]
      (.done id)

/-- What a submission tells of its calls. -/
def submitting (s : Service) (task : Nat) (csrPem token : String) (source : IpAddress)
    (agentInfo : Json) : Account RequestId := fun calls rest =>
  Submitting s task csrPem token source agentInfo (calls.filter (·.isWrite)) rest

section Conduct

variable {s : Service} {stores : Stores} {task : Nat} {w : World}
variable {csrPem token : String} {source : IpAddress} {agentInfo : Json}

/-- A submission that has written nothing, as its whole past tells. -/
theorem submitting_of_not_written {past : List Event} (hnone : past.filter (·.isWrite) = [])
    {rest : Procedure RequestId} (hrest : ∀ id, rest ≠ .done id) :
    Promise.ofAccount (submitting s task csrPem token source agentInfo) past rest := by
  unfold Promise.ofAccount submitting
  rw [Event.filter_isWrite_filter_isCall, hnone]
  exact .idle hrest

/-- A submission that is to be begun anew has written nothing. -/
theorem not_written_of_unfinished {past : List Event}
    (hpromise : Promise.ofAccount (submitting s task csrPem token source agentInfo) past
      (.fail .unfinished)) : past.filter (·.isWrite) = [] := by
  unfold Promise.ofAccount submitting at hpromise
  rw [Event.filter_isWrite_filter_isCall] at hpromise
  generalize past.filter (·.isWrite) = writes at hpromise ⊢
  cases hpromise with
  | idle hrest => rfl
  | paid hcheck hrest => exact absurd rfl hrest

/-- A submission that has spent its token, and nothing else. -/
theorem submitting_of_paid {csr : ValidatedCsr} {tokenId : TokenId} {used : BootstrapToken}
    (hcheck : s.checkSubmission csrPem token agentInfo = .ok (csr, tokenId)) {calls : List Event}
    (hpaid : calls.filter (·.isWrite) = [.change task .tokens tokenId.text used firstRevision])
    {rest : Procedure RequestId} (hrest : rest.Fruitless) :
    submitting s task csrPem token source agentInfo calls rest := by
  unfold submitting
  rw [hpaid]
  exact .paid hcheck hrest

/-- What follows upon the attempt to enter the request. -/
theorem keeps_entered {csr : ValidatedCsr} {tokenId : TokenId} {used : BootstrapToken}
    (hcheck : s.checkSubmission csrPem token agentInfo = .ok (csr, tokenId)) {calls : List Event}
    (hpaid : calls.filter (·.isWrite) = [.change task .tokens tokenId.text used firstRevision])
    {id : RequestId} {now : Instant} {reply : Except CaError Nat}
    (hreply : ∀ revision, reply = .ok revision → revision = firstRevision)
    (hcalls : w.calls task = calls ++ [⟨task, .table .requests (.create id.text
      (Ledger.Submission.entry ⟨csr.pem, csr.identity, source, tokenId, agentInfo⟩ id now)),
        reply⟩])
    {retry : Procedure RequestId}
    (hretry : (w.calls task).filter (·.isWrite) =
        [.change task .tokens tokenId.text used firstRevision] →
      retry.Keeps Tokens.Law stores task
        (.ofAccount (submitting s task csrPem token source agentInfo)) w) :
    (Ledger.entered id retry reply).Keeps Tokens.Law stores task
      (.ofAccount (submitting s task csrPem token source agentInfo)) w := by
  cases reply with
  | ok revision =>
      obtain rfl := hreply revision rfl
      apply Procedure.keeps_done _ hcalls
      unfold submitting
      rw [List.filter_append, hpaid]
      exact .filed hcheck
  | error e =>
      have hstill : (w.calls task).filter (·.isWrite) =
          [.change task .tokens tokenId.text used firstRevision] := by
        rw [hcalls, List.filter_append, hpaid]
        rfl
      unfold Ledger.entered
      split
      · next hok => cases hok
      · exact hretry hstill
      · exact Procedure.keeps_fail _ rfl (submitting_of_paid hcheck hstill nofun)

/-- Enters the request of a submission that has spent its token. -/
theorem keeps_submitFrom {csr : ValidatedCsr} {tokenId : TokenId} {used : BootstrapToken}
    (hcheck : s.checkSubmission csrPem token agentInfo = .ok (csr, tokenId)) (attempts : Nat)
    (hpaid : (w.calls task).filter (·.isWrite) =
      [.change task .tokens tokenId.text used firstRevision]) :
    (Ledger.submitFrom ⟨csr.pem, csr.identity, source, tokenId, agentInfo⟩ attempts).Keeps
      Tokens.Law stores task (.ofAccount (submitting s task csrPem token source agentInfo)) w := by
  induction attempts generalizing w with
  | zero => exact Procedure.keeps_fail _ rfl (submitting_of_paid hcheck hpaid nofun)
  | succ attempts ih =>
      apply Procedure.keeps_quiet (steady_ruled _ _) rfl rfl
        (submitting_of_paid hcheck hpaid trivial)
      intro now second _ hsecond _ _
      apply Procedure.keeps_quiet (steady_ruled _ _) rfl hsecond
        (submitting_of_paid hcheck hpaid trivial)
      intro tail third _ hthird _ _
      refine Procedure.keeps_table hthird (submitting_of_paid hcheck hpaid trivial)
        (fun found chance _ hlaw => hlaw.after_other stores chance task rfl) ?_
      intro found later chance reply _ _ hreply _ _ _ hcalls
      apply keeps_entered hcheck hpaid _ hcalls ih
      rintro revision rfl
      rcases found.create_cases stores chance task .requests _ _ with
        ⟨e, -, herror, -⟩ | ⟨-, hok, -⟩
      · rw [herror] at hreply
        cases hreply
      · rw [hok] at hreply
        exact (Except.ok.inj hreply).symm

theorem procedure_submit (s : Service) (csrPem token : String) (source : IpAddress)
    (agentInfo : Json) : s.desk.procedure (.submit csrPem token source agentInfo) =
      s.submit csrPem token source agentInfo := by
  have hperform (errand : Errand) : s.desk.procedure errand = s.perform errand := rfl
  exact hperform (.submit csrPem token source agentInfo)

theorem keeps_submit (s : Service) (csrPem token : String) (source : IpAddress)
    (agentInfo : Json) (hreachable : w.Reachable stores) (hlaw : Tokens.Law w)
    (hnone : (w.past task).filter (·.isWrite) = []) :
    (s.desk.procedure (.submit csrPem token source agentInfo)).Keeps Tokens.Law stores task
      (.ofAccount (submitting s task csrPem token source agentInfo)) w := by
  -- The unifier would compare the two procedures by unfolding the submission.
  suffices hkeeps : (s.submit csrPem token source agentInfo).Keeps Tokens.Law stores task
      (.ofAccount (submitting s task csrPem token source agentInfo)) w by
    rw [← procedure_submit] at hkeeps
    exact hkeeps
  unfold submit
  split
  · exact submitting_of_not_written hnone nofun
  · next csr tokenId hcheck =>
      apply (Tokens.keeps_redeem ⟨tokenId, csr.identity.commonName, source⟩ 0 s.redeemRounds
        hnone).bind hreachable hlaw
      · intro past rest hredeeming hlost
        exact submitting_of_not_written (Tokens.fails_of_not_done hredeeming hlost).1
          (Procedure.bind_ne_done hlost _)
      · intro used later _ _ _ hredeemed
        apply keeps_submitFrom hcheck
        rw [World.filter_isWrite_calls]
        exact Tokens.Redeemed.wrote hredeemed

/-- Whether an errand is about tokens. -/
def Errand.handlesTokens : Errand → Bool
  | .submit _ _ _ _ | .issueToken _ _ _ _ _ | .pruneTokens => true
  | _ => false

theorem Writes.not_writesTo_tokens {errand : Errand} {e : Effect} (hwrites : s.Writes errand e)
    (herrand : errand.handlesTokens = false) : e.writesTo .tokens = false := by
  cases hwrites with
  | spent hcheck hredeemable => cases herrand
  | issued hunused => cases herrand
  | pruned key revision => cases herrand
  | _ => rfl

/-- What each errand promises about tokens. -/
def spendingPromise (s : Service) : s.desk.Promises
  | .submit csrPem token source agentInfo, task =>
    .ofAccount (submitting s task csrPem token source agentInfo)
  | .issueToken _ _ _ _ _, _ => anything
  | .pruneTokens, _ => anything
  | _, _ => fun past _ => ∀ event ∈ past, event.effect.writesTo .tokens = false

/-- An errand that is not about tokens leaves them alone. -/
theorem keeps_aside {errand : Errand} (herrand : errand.handlesTokens = false)
    (hpast : ∀ event ∈ w.past task, event.effect.writesTo .tokens = false) :
    (s.desk.procedure errand).Keeps Tokens.Law stores task
      (fun past _ => ∀ event ∈ past, event.effect.writesTo .tokens = false) w := by
  have honly : (s.perform errand).Only fun e => e.writesTo .tokens = false :=
    (perform_writes s errand).mono fun e he =>
      he.elim (fun hquiet => Effect.not_writesTo_of_not_asksWrite hquiet _)
        fun hwrites => hwrites.not_writesTo_tokens herrand
  exact honly.keeps (fun w hlaw chance e he => hlaw.after_other stores chance task he) hpast

theorem keeps_pruneTokens (s : Service) (w : World) :
    s.pruneTokens.Keeps Tokens.Law stores task anything w :=
  ⟨trivial, fun _ _ _ hlaw chance =>
    ⟨hlaw.after_other stores chance task rfl, Tokens.keeps_prune _ _ _⟩⟩

/-- Every errand keeps the law of the tokens and its promise. -/
theorem spending_keeps (s : Service) (stores : Stores) :
    s.desk.Keeps Tokens.Law stores s.spendingPromise where
  empty := (Tokens.desk_keeps stores).empty
  start := by
    intro errand task w hreachable hlaw hpast
    cases errand with
    | submit csrPem token source agentInfo =>
        exact keeps_submit s csrPem token source agentInfo hreachable hlaw (by rw [hpast]; rfl)
    | issueToken commonName validityHours sources comment createdBy => exact Tokens.keeps_issue _ w
    | pruneTokens => exact keeps_pruneTokens s w
    | _ => exact keeps_aside rfl (by rw [hpast]; exact List.forall_mem_nil _)
  again := by
    intro errand task w hreachable hlaw hpromise
    cases errand with
    | submit csrPem token source agentInfo =>
        exact keeps_submit s csrPem token source agentInfo hreachable hlaw
          (not_written_of_unfinished hpromise)
    | issueToken commonName validityHours sources comment createdBy => exact Tokens.keeps_issue _ w
    | pruneTokens => exact keeps_pruneTokens s w
    | _ => exact keeps_aside rfl hpromise

/-- A submission that has entered a request has spent its token before, and enters no other. -/
theorem Submitting.of_creation {writes : List Event} {rest : Procedure RequestId}
    (hsubmitting : Submitting s task csrPem token source agentInfo writes rest) {key : String}
    {r : CertificateRequest} (hcreation : .creation task .requests key r ∈ writes) :
    ∃ csr tokenId used, s.checkSubmission csrPem token agentInfo = .ok (csr, tokenId) ∧
      .change task .tokens tokenId.text used firstRevision ∈ writes ∧
        ∀ other found, .creation task .requests other found ∈ writes → other = key := by
  cases hsubmitting with
  | idle => cases hcreation
  | paid hcheck hrest => cases List.mem_singleton.mp hcreation
  | @filed csr tokenId used id now hcheck =>
      have hkey {other : String} {found : CertificateRequest}
          (hother : .creation task .requests other found ∈
            [Event.change task .tokens tokenId.text used firstRevision,
              .creation task .requests id.text
                (Ledger.Submission.entry ⟨csr.pem, csr.identity, source, tokenId, agentInfo⟩
                  id now)]) : other = id.text := by
        rcases List.mem_cons.mp hother with hchange | hlast
        · cases hchange
        · cases List.mem_singleton.mp hlast
          rfl
      refine ⟨csr, tokenId, used, hcheck, List.mem_cons_self, fun other found hother => ?_⟩
      rw [hkey hcreation]
      exact hkey hother

end Conduct

section Run

variable {s : Service} {stores : Stores} {moves : List (Move s.desk)} {key : String}

/-- Whoever has changed a token was to submit a request, and found that it may spend the token. -/
theorem submit_of_change {task revision : Nat} {used : BootstrapToken}
    (hchange : .change task .tokens key used revision ∈ (Office.run stores moves).world.log) :
    ∃ csrPem token source agentInfo rest csr tokenId now, ∃ read : Versioned BootstrapToken,
      (Office.run stores moves).tasks[task]? =
          some ⟨.submit csrPem token source agentInfo, rest⟩ ∧
        s.checkSubmission csrPem token agentInfo = .ok (csr, tokenId) ∧
        read.value.checkRedeemable now csr.identity.commonName source = .ok () ∧
        used = read.value.markUsed now csr.identity.commonName source := by
  obtain ⟨errand, rest, htask, hwrites⟩ := writes_of_mem hchange rfl
  cases hwrites with
  | spent hcheck hredeemable =>
      exact ⟨_, _, _, _, rest, _, _, _, _, htask, hcheck, hredeemable, rfl⟩

/-- The account of a submission. -/
theorem submitting_of_submit {task : Nat} {csrPem token : String} {source : IpAddress}
    {agentInfo : Json} {rest : Procedure RequestId}
    (htask : (Office.run stores moves).tasks[task]? =
      some ⟨.submit csrPem token source agentInfo, rest⟩) :
    submitting s task csrPem token source agentInfo ((Office.run stores moves).world.calls task)
      rest :=
  ((Office.abides_run (spending_keeps s stores) moves).tasks task
    (.submit csrPem token source agentInfo) rest htask).promised

/-- That a token was spent for a request that had passed its checks, by a task that has entered no
other. -/
structure SpentFor (s : Service) (w : World) (task : Nat) (r : CertificateRequest)
    (token : BootstrapToken) : Prop where
  changed : .change task .tokens r.bootstrapTokenId.text token firstRevision ∈ w.log
  created : ∃ found, .creation task .requests r.requestId.text found ∈ w.log
  only : ∀ key found, .creation task .requests key found ∈ w.log → key = r.requestId.text
  marked : ∃ (read : Versioned BootstrapToken) (now : Instant),
    read.value.checkRedeemable now r.subject.commonName r.sourceIp = .ok () ∧
      token = read.value.markUsed now r.subject.commonName r.sourceIp
  validated : ∃ csr, Csr.validate r.csrPem = .ok csr ∧ csr.identity = r.subject
  usertype : s.issuance.requireUsertype → ∃ unit, r.subject.requireUsertype = .ok unit

/-- It matters only what was submitted. -/
theorem SpentFor.of_submitted {w : World} {task : Nat} {r found : CertificateRequest}
    {token : BootstrapToken} (hspent : SpentFor s w task r token)
    (hsame : found.submitted = r.submitted) : SpentFor s w task found token := by
  simp only [CertificateRequest.submitted, Prod.mk.injEq, Ledger.Submission.mk.injEq] at hsame
  obtain ⟨hid, ⟨hpem, hsubject, hsource, htoken, -⟩, -⟩ := hsame
  obtain ⟨hchanged, hcreated, honly, hmarked, hvalidated, husertype⟩ := hspent
  rw [← htoken] at hchanged
  rw [← hid] at hcreated honly
  rw [← hsubject, ← hsource] at hmarked
  rw [← hpem, ← hsubject] at hvalidated
  rw [← hsubject] at husertype
  exact ⟨hchanged, hcreated, honly, hmarked, hvalidated, husertype⟩

/-- Whoever has entered a request has spent its token for it. -/
theorem spent_of_creation {task : Nat} {r : CertificateRequest}
    (hcreation : .creation task .requests key r ∈ (Office.run stores moves).world.log) :
    r.requestId.text = key ∧
      ∃ token, SpentFor s (Office.run stores moves).world task r token := by
  -- The creation tells the errand, the errand's account the token that was spent before, and the
  -- change of that token what it was when it was read.
  obtain ⟨errand, rest, htask, hwrites⟩ := writes_of_mem hcreation rfl
  cases hwrites with
  | @filed csrPem token source agentInfo csr tokenId id now hcheck =>
      obtain ⟨_, _, used, hchecked, hchange, honly⟩ :=
        (submitting_of_submit htask).of_creation
          ((World.mem_filter_isWrite_calls rfl).mpr hcreation)
      rw [hcheck] at hchecked
      cases hchecked
      have hchanged := (World.mem_filter_isWrite_calls rfl).mp hchange
      obtain ⟨_, _, _, _, _, _, _, spentAt, read, hsame, hchecked, hredeemable, hmarked⟩ :=
        submit_of_change hchanged
      rw [htask] at hsame
      cases hsame
      rw [hcheck] at hchecked
      cases hchecked
      obtain ⟨hvalid, husertype⟩ := of_checkSubmission hcheck
      refine ⟨rfl, used, ?_⟩
      constructor
      · exact hchanged
      · exact ⟨_, hcreation⟩
      · exact fun other found hother =>
          honly other found ((World.mem_filter_isWrite_calls rfl).mpr hother)
      · exact ⟨read, spentAt, hredeemable, hmarked⟩
      · refine ⟨csr, ?_, rfl⟩
        change Csr.validate csr.pem = .ok csr
        rwa [validate_pem hvalid]
      · exact husertype

/-- The token of every request was spent for it, by a task that has entered no other. -/
theorem spent_of_find {entry : Versioned CertificateRequest}
    (hfind : (Office.run stores moves).world.find? .requests key = some entry) :
    entry.value.requestId.text = key ∧
      ∃ task token, SpentFor s (Office.run stores moves).world task entry.value token := by
  have hrecord := (abides s stores moves).lawful.1 key
  rw [hfind] at hrecord
  obtain ⟨task, r, hcreation, hsubmitted⟩ := hrecord.creation rfl
  obtain ⟨hid, token, hspent⟩ := spent_of_creation (World.mem_log_of_mem_writes hcreation)
  refine ⟨?_, task, token, hspent.of_submitted hsubmitted⟩
  rw [← hid]
  exact congrArg (·.1.text) hsubmitted

/-- That a token was used for a request, which it allowed. -/
structure UsedFor (token : BootstrapToken) (r : CertificateRequest) : Prop where
  name : token.usedByCommonName = some r.subject.commonName
  source : token.usedFromIp = some r.sourceIp
  inTime : ∃ moment, token.usedAt = some moment ∧ moment < token.expiresAt
  /-- The name that it was meant for, if it was meant for one, is that of the request. -/
  expected : ∀ expected, token.expectedCommonName = some expected →
    expected = r.subject.commonName
  /-- The addresses that it was meant for, if there are any, have that of the request. -/
  allowed : ∀ addresses, token.allowedSourceIps = some addresses →
    addresses.isEmpty ∨ addresses.contains r.sourceIp

theorem SpentFor.usedFor {w : World} {task : Nat} {r : CertificateRequest}
    {token : BootstrapToken} (hspent : SpentFor s w task r token) : UsedFor token r := by
  obtain ⟨read, now, hredeemable, rfl⟩ := hspent.marked
  obtain ⟨hexpired, -, hallows, hexpected⟩ := Tokens.checkRedeemable_eq_ok_iff.mp hredeemable
  refine ⟨rfl, rfl, ⟨now, rfl, Tokens.isExpiredAt_eq_false_iff.mp hexpired⟩, hexpected, ?_⟩
  intro addresses haddresses
  change read.value.allowedSourceIps = some addresses at haddresses
  rw [BootstrapToken.allowsSource, haddresses] at hallows
  exact Bool.or_eq_true_iff.mp hallows

/-- How a request was let in. -/
structure Admission (s : Service) (w : World) (key : String) (r : CertificateRequest) : Prop where
  own : r.requestId.text = key
  /-- Its token stands, as it was used for the request. -/
  paid : ∃ entry, w.find? .tokens r.bootstrapTokenId.text = some entry ∧ UsedFor entry.value r
  validated : ∃ csr, Csr.validate r.csrPem = .ok csr ∧ csr.identity = r.subject
  usertype : s.issuance.requireUsertype →
    ∃ unit, r.subject.organizationalUnit = some unit ∧ unit ≠ ""

/-- What is certain of the requests that are entered, after any moves. -/
structure Admissions (s : Service) (stores : Stores) (moves : List (Move s.desk)) : Prop where
  admitted : ∀ key entry,
    (Office.run stores moves).world.find? .requests key = some entry →
      Admission s (Office.run stores moves).world key entry.value
  /-- No two of them name one token. -/
  alone : ∀ key other entry found,
    (Office.run stores moves).world.find? .requests key = some entry →
      (Office.run stores moves).world.find? .requests other = some found →
        entry.value.bootstrapTokenId = found.value.bootstrapTokenId → other = key

/-- Every request has a token of its own, which was spent for it and allowed it. -/
theorem admissions (s : Service) (stores : Stores) (moves : List (Move s.desk)) :
    Admissions s stores moves where
  admitted := by
    intro key entry hfind
    obtain ⟨hown, task, token, hspent⟩ := spent_of_find hfind
    have hlaw := (Office.abides_run (spending_keeps s stores) moves).lawful
    obtain ⟨-, hstands, -⟩ := hlaw.stands_of_change hspent.changed
    refine ⟨hown, ⟨_, hstands, hspent.usedFor⟩, hspent.validated, fun hrequired => ?_⟩
    obtain ⟨unit, hunit⟩ := hspent.usertype hrequired
    exact ⟨unit, SubjectIdentity.of_requireUsertype hunit⟩
  alone := by
    intro key other entry found hfind hother hsame
    obtain ⟨hown, task, token, hspent⟩ := spent_of_find hfind
    obtain ⟨hotherOwn, rival, used, hotherSpent⟩ := spent_of_find hother
    have hlaw := (Office.abides_run (spending_keeps s stores) moves).lawful
    have hchanged := hotherSpent.changed
    rw [← hsame] at hchanged
    -- Both tasks have changed the token, which was changed once.
    obtain rfl : rival = task := hlaw.eq_of_changes hspent.changed hchanged
    obtain ⟨r, hcreation⟩ := hotherSpent.created
    rw [← hown, ← hotherOwn]
    exact hspent.only _ r hcreation

end Run

end Service

end CertAuthority
