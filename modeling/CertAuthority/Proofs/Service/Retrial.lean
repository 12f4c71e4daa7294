import CertAuthority.Proofs.Csr.Checks
import CertAuthority.Proofs.Service.Submission

/-!
# Submissions that are repeated

A submission spends its token first and enters its request second.  One that fails before has left
nothing, and whoever repeats it may be served; but if the second write is refused, the first one
stands, and whoever repeats the submission is told that its token was used.  A caller cannot tell
the two from the error: what the table of the requests answers may well be an error after which one
may try again.
-/

namespace CertAuthority

open Versioned (firstRevision nextRevision)

namespace Tokens

theorem isUsed_of_alreadyUsed {token : BootstrapToken} {now : Instant} {presented : String}
    {source : IpAddress}
    (hcheck : token.checkRedeemable now presented source = .error .alreadyUsed) :
    token.isUsed = true := by
  unfold BootstrapToken.checkRedeemable at hcheck
  split at hcheck
  · cases hcheck
  · split at hcheck
    · next hused => exact hused
    · split at hcheck
      · cases hcheck
      · split at hcheck
        · cases hcheck
        · split at hcheck <;> cases hcheck

/-- A token that was used and has not expired is refused for its use. -/
theorem checkRedeemable_of_used {token : BootstrapToken} {now : Instant}
    (hexpired : token.isExpiredAt now = false) (hused : token.isUsed = true) (presented : String)
    (source : IpAddress) :
    token.checkRedeemable now presented source = .error .alreadyUsed := by
  simp [BootstrapToken.checkRedeemable, hexpired, hused]

/-- That a task has read a token as used. -/
def ReadUsed (id : TokenId) (task : Nat) (past : List Event) : Prop :=
  ∃ read : Versioned BootstrapToken, read.value.isUsed ∧
    ⟨task, .table .tokens (.get id.text), .ok (some read)⟩ ∈ past

/-- Whoever is told that a token was used has read it as used. -/
def told (redemption : Redemption) (task : Nat) : Promise BootstrapToken := fun past rest =>
  rest = .fail (.error (.token .alreadyUsed)) → ReadUsed redemption.tokenId task past

theorem keeps_told (redemption : Redemption) (stores : Stores) (task rounds : Nat) (w : World) :
    (redeem redemption rounds).Keeps (fun _ => True) stores task (told redemption task) w := by
  induction rounds generalizing w with
  | zero => exact nofun
  | succ rounds ih =>
      refine ⟨nofun, fun found _ _ _ first => ⟨trivial, ?_⟩⟩
      refine ⟨nofun, fun later _ _ _ second => ⟨trivial, ?_⟩⟩
      generalize found.reply stores first .now = now
      rcases later.reply_get stores second .tokens redemption.tokenId.text with
        ⟨e, htable, hreply⟩ | hreply
      · rw [hreply]
        intro hfail
        cases hfail
        cases htable
      · have hread := List.mem_append_right (later.past task)
          (List.mem_singleton.mpr (rfl : Event.mk task
            (.table .tokens (.get redemption.tokenId.text))
            (later.reply stores second (.table .tokens (.get redemption.tokenId.text))) = _))
        rw [← World.past_after, hreply] at hread
        rw [hreply]
        generalize later.after stores second task (.table .tokens (.get redemption.tokenId.text)) =
          seen at hread ⊢
        cases hfind : later.find? .tokens redemption.tokenId.text with
        | none => exact nofun
        | some read =>
            rw [hfind] at hread
            change (spend redemption now read (redeem redemption rounds)).Keeps _ _ _ _ _
            unfold spend
            split
            · next reason hcheck =>
                intro hfail
                cases hfail
                exact ⟨read, isUsed_of_alreadyUsed hcheck, hread⟩
            · refine ⟨nofun, fun last _ _ _ third => ⟨trivial, ?_⟩⟩
              rcases last.update_cases stores third task .tokens redemption.tokenId.text
                (read.value.markUsed now redemption.commonName redemption.source) read.revision with
                ⟨e, htable, hrefused, -⟩ | ⟨-, -, -, hwritten, -⟩
              · rw [hrefused]
                unfold written
                split
                · next hok => cases hok
                · exact ih _
                · next hother =>
                    cases hother
                    intro hfail
                    cases hfail
                    cases htable
              · rw [hwritten]
                exact nofun

end Tokens

namespace Service

open Tokens (ReadUsed told)

/-- Whether a request was refused since its identifier was taken. -/
def isTaken : Event → Bool
  | ⟨_, .table .requests (.create _ _), .error (.conflict _)⟩ => true
  | _ => false

/-- Why a request was not entered: the table refused it, or as often as an identifier is drawn it
was taken. -/
inductive Unfiled (task : Nat) (calls : List Event) : CaError → Prop where
  | refused {key : String} {r : CertificateRequest} {e : CaError} (htable : e.isOfTable)
    (hother : ∀ taken, e ≠ .conflict taken)
    (hrefused : ⟨task, .table .requests (.create key r), .error e⟩ ∈ calls) : Unfiled task calls e
  | taken (hcount : calls.countP isTaken = Ledger.maxAttempts) :
    Unfiled task calls (.internal "Failed to allocate a unique request id")

/-- The submission that is repeated: what was submitted, and the token that it names. -/
structure Attempt where
  csrPem : String
  token : String
  source : IpAddress
  agentInfo : Json

/-- What is asked for with it. -/
def Attempt.errand (a : Attempt) : Errand :=
  .submit a.csrPem a.token a.source a.agentInfo

/-- That a submission passes its checks, and which token it names. -/
def Attempt.Names (s : Service) (a : Attempt) (id : TokenId) : Prop :=
  ∃ csr, s.checkSubmission a.csrPem a.token a.agentInfo = .ok (csr, id)

/-- What a submission has come to: it has not spent its token, and has asked for no request; it has,
and is entering its request; it has in vain; or it has entered its request. -/
inductive Underway (s : Service) (task : Nat) (a : Attempt) (calls : List Event) :
    Procedure RequestId → Prop where
  | unpaid {rest : Procedure RequestId} (hwrites : calls.filter (·.isWrite) = [])
    (hnever : ∀ event ∈ calls, event.effect.writesTo .requests = false)
    (htold : rest = .fail (.error (.token .alreadyUsed)) →
      ∃ id, a.Names s id ∧ ReadUsed id task calls) : Underway s task a calls rest
  | paid {id : TokenId} {used : BootstrapToken} {rest : Procedure RequestId} (hnames : a.Names s id)
    (hwrites : calls.filter (·.isWrite) = [.change task .tokens id.text used firstRevision])
    (hgoing : rest.Going) : Underway s task a calls rest
  | wasted {id : TokenId} {used : BootstrapToken} {e : CaError} (hnames : a.Names s id)
    (hwrites : calls.filter (·.isWrite) = [.change task .tokens id.text used firstRevision])
    (hunfiled : Unfiled task calls e) : Underway s task a calls (.fail (.error e))
  | filed (id : RequestId) : Underway s task a calls (.done id)

section Conduct

variable {s : Service} {stores : Stores} {task : Nat} {w : World} {a : Attempt}

/-- What the checks of a submission object to: its token is blank, or it is a matter of
validation. -/
theorem of_checkSubmission_error {csrPem token : String} {agentInfo : Json} {e : CaError}
    (herror : s.checkSubmission csrPem token agentInfo = .error e) :
    e = .token .notFound ∨ e.category = .validation := by
  unfold checkSubmission at herror
  dsimp only at herror
  split at herror
  · cases herror
    exact .inl rfl
  · split at herror
    · cases herror
      exact .inr rfl
    · split at herror
      · next hvalid =>
          cases herror
          exact .inr (Csr.category_of_validate hvalid)
      · split at herror
        · split at herror
          · cases herror
            exact .inr rfl
          · cases herror
        · cases herror

theorem checkSubmission_ne_alreadyUsed {csrPem token : String} {agentInfo : Json} :
    s.checkSubmission csrPem token agentInfo ≠ .error (.token .alreadyUsed) := by
  intro herror
  rcases of_checkSubmission_error herror with hblank | hvalidation
  · cases hblank
  · cases hvalidation

/-- Who has asked the requests for nothing was told of no identifier that it is taken. -/
theorem countP_isTaken_eq_zero {calls : List Event}
    (hnever : ∀ event ∈ calls, event.effect.writesTo .requests = false) :
    calls.countP isTaken = 0 := by
  rw [List.countP_eq_zero]
  intro event hevent htaken
  have hnone := hnever event hevent
  unfold isTaken at htaken
  split at htaken
  · cases hnone
  · cases htaken

/-- What follows upon the attempt to enter the request. -/
theorem stands_entered {id : TokenId} {used : BootstrapToken} (hnames : a.Names s id)
    {calls : List Event}
    (hwrites : calls.filter (·.isWrite) = [.change task .tokens id.text used firstRevision])
    {key : String} {r : CertificateRequest} {reply : Except CaError Nat}
    (htable : ∀ e, reply = .error e → e.isOfTable)
    (hcalls : w.calls task = calls ++ [⟨task, .table .requests (.create key r), reply⟩])
    {retry : Procedure RequestId}
    (hretry : ∀ taken, reply = .error (.conflict taken) →
      (w.calls task).filter (·.isWrite) = [.change task .tokens id.text used firstRevision] →
        (w.calls task).countP isTaken = calls.countP isTaken + 1 →
          retry.Keeps Tokens.Law stores task (.ofAccount (Underway s task a)) w)
    (entered : RequestId) :
    (Ledger.entered entered retry reply).Keeps Tokens.Law stores task
      (.ofAccount (Underway s task a)) w := by
  cases reply with
  | ok revision => exact Procedure.keeps_done _ hcalls (.filed _)
  | error e =>
      have hstill : (w.calls task).filter (·.isWrite) =
          [.change task .tokens id.text used firstRevision] := by
        rw [hcalls, List.filter_append, hwrites]
        rfl
      unfold Ledger.entered
      split
      · next hok => cases hok
      · next taken hconflict =>
          cases hconflict
          apply hretry taken rfl hstill
          rw [hcalls, List.countP_append]
          rfl
      · next other hother herror =>
          cases herror
          have hrefused : Event.mk task (.table .requests (.create key r)) (.error e) ∈
              w.calls task := by
            rw [hcalls]
            exact List.mem_append_right _ List.mem_cons_self
          refine Procedure.keeps_fail _ rfl (.wasted hnames hstill (.refused (htable e rfl) ?_
            hrefused))
          rintro taken rfl
          exact hother taken rfl

/-- Enters the request after the token was spent. -/
theorem underway_submitFrom {submission : Ledger.Submission} {id : TokenId} {used : BootstrapToken}
    (hnames : a.Names s id) {attempts : Nat}
    (hwrites : (w.calls task).filter (·.isWrite) =
      [.change task .tokens id.text used firstRevision])
    (hcount : (w.calls task).countP isTaken + attempts = Ledger.maxAttempts) :
    (Ledger.submitFrom submission attempts).Keeps Tokens.Law stores task
      (.ofAccount (Underway s task a)) w := by
  induction attempts generalizing w with
  | zero => exact Procedure.keeps_fail _ rfl (.wasted hnames hwrites (.taken hcount))
  | succ attempts ih =>
      apply Procedure.keeps_quiet (steady_ruled _ _) rfl rfl (.paid hnames hwrites trivial)
      intro now second _ hsecond _ _
      apply Procedure.keeps_quiet (steady_ruled _ _) rfl hsecond (.paid hnames hwrites trivial)
      intro tail third _ hthird _ _
      refine Procedure.keeps_table hthird (.paid hnames hwrites trivial)
        (fun found chance _ hlaw => hlaw.after_other stores chance task rfl) ?_
      intro found later chance reply _ _ hreply _ _ _ hcalls
      apply stands_entered hnames hwrites _ hcalls
      · intro taken _ hstill hmore
        apply ih hstill
        omega
      · rintro e rfl
        rcases found.create_cases stores chance task .requests _ _ with
          ⟨error, htable, herror, -⟩ | ⟨-, hok, -⟩
        · cases herror.symm.trans hreply
          exact htable
        · cases hok.symm.trans hreply

/-- A submission that has asked for no write, as its whole past tells, and was told nothing. -/
theorem stands_unpaid {past : List Event} {rest : Procedure RequestId}
    (hwrites : past.filter (·.isWrite) = [])
    (hnever : ∀ event ∈ past, event.effect.writesTo .requests = false)
    (htold : rest = .fail (.error (.token .alreadyUsed)) →
      ∃ id, a.Names s id ∧ ReadUsed id task past) :
    Promise.ofAccount (Underway s task a) past rest := by
  refine .unpaid ?_ (fun event hevent => hnever event (List.mem_filter.mp hevent).1) fun hrest => ?_
  · rw [Event.filter_isWrite_filter_isCall, hwrites]
  · obtain ⟨id, hnames, read, hused, hread⟩ := htold hrest
    exact ⟨id, hnames, read, hused, List.mem_filter.mpr ⟨hread, rfl⟩⟩

/-- A submission that is to be begun anew has not spent its token. -/
theorem unpaid_of_unfinished {past : List Event}
    (hpromise : Promise.ofAccount (Underway s task a) past (.fail .unfinished)) :
    past.filter (·.isWrite) = [] ∧
      ∀ event ∈ past, event.effect.writesTo .requests = false := by
  cases hpromise with
  | unpaid hwrites hnever htold =>
      rw [Event.filter_isWrite_filter_isCall] at hwrites
      refine ⟨hwrites, fun event hevent => ?_⟩
      cases hcall : event.effect.isCall with
      | true => exact hnever event (List.mem_filter.mpr ⟨hevent, hcall⟩)
      | false =>
          have hquiet := Effect.not_asksWrite_of_not_isCall hcall
          exact Effect.not_writesTo_of_not_asksWrite hquiet _
  | paid hnames hwrites hgoing => exact hgoing.elim

/-- Redeeming a token asks the requests for nothing. -/
theorem redeem_only (redemption : Tokens.Redemption) (rounds : Nat) :
    (Tokens.redeem redemption rounds).Only fun e => e.writesTo .requests = false := by
  have hasks : (Tokens.redeem redemption rounds).Asks fun e => e.writesTo .requests = false :=
    Tokens.redeem_asks (fun _ _ _ => rfl) rounds
  exact hasks.mono fun e he =>
    he.elim (fun hquiet => Effect.not_writesTo_of_not_asksWrite hquiet _) id

theorem underway_submit (hreachable : w.Reachable stores) (hlaw : Tokens.Law w)
    (hwrites : (w.past task).filter (·.isWrite) = [])
    (hnever : ∀ event ∈ w.past task, event.effect.writesTo .requests = false) :
    (s.desk.procedure a.errand).Keeps Tokens.Law stores task (.ofAccount (Underway s task a)) w := by
  -- The unifier would compare the two procedures by unfolding the submission.
  suffices hkeeps : (s.submit a.csrPem a.token a.source a.agentInfo).Keeps Tokens.Law stores task
      (.ofAccount (Underway s task a)) w by
    rw [← procedure_submit] at hkeeps
    exact hkeeps
  unfold submit
  split
  · next e hcheck =>
      apply stands_unpaid hwrites hnever
      intro hfail
      cases hfail
      exact absurd hcheck checkSubmission_ne_alreadyUsed
  · next csr id hcheck =>
      have htold := Tokens.keeps_told ⟨id, csr.identity.commonName, a.source⟩ stores task
        s.redeemRounds w
      have hredeem := (Tokens.keeps_redeem _ 0 _ hwrites).and_lawless
        (((redeem_only _ _).keeps (fun _ _ _ _ _ => trivial) hnever).and htold)
      apply hredeem.bind hreachable hlaw
      · rintro past rest ⟨hredeeming, hnone, htold⟩ hlost
        apply stands_unpaid (Tokens.fails_of_not_done hredeeming hlost).1 hnone
        intro hfail
        cases rest with
        | done token => exact absurd rfl (hlost token)
        | call e next => cases hfail
        | fail f =>
            cases hfail
            exact ⟨id, ⟨csr, hcheck⟩, htold rfl⟩
      · rintro used later _ _ _ ⟨hredeemed, hnone, -⟩
        apply underway_submitFrom ⟨csr, hcheck⟩
        · rw [World.filter_isWrite_calls]
          exact Tokens.Redeemed.wrote hredeemed
        · have hcalls : ∀ event ∈ later.calls task, event.effect.writesTo .requests = false :=
            fun event hevent => hnone event (World.mem_calls_iff.mp hevent).1
          rw [countP_isTaken_eq_zero hcalls, Nat.zero_add]

/-- What each errand promises: a submission tells how it stands. -/
def underwayPromise (s : Service) : s.desk.Promises
  | .submit csrPem token source agentInfo, task =>
    .ofAccount (Underway s task ⟨csrPem, token, source, agentInfo⟩)
  | errand, task => s.spendingPromise errand task

theorem underway_keeps (s : Service) (stores : Stores) :
    s.desk.Keeps Tokens.Law stores s.underwayPromise where
  empty := (spending_keeps s stores).empty
  start := by
    intro errand task w hreachable hlaw hpast
    have hother := (spending_keeps s stores).start errand task w hreachable hlaw hpast
    cases errand with
    | submit csrPem token source agentInfo =>
        exact underway_submit (a := ⟨csrPem, token, source, agentInfo⟩) hreachable hlaw
          (by rw [hpast]; rfl) (by rw [hpast]; exact List.forall_mem_nil _)
    | _ => exact hother
  again := by
    intro errand task w hreachable hlaw hpromise
    cases errand with
    | submit csrPem token source agentInfo =>
        obtain ⟨hwrites, hnever⟩ := unpaid_of_unfinished hpromise
        exact underway_submit (a := ⟨csrPem, token, source, agentInfo⟩) hreachable hlaw hwrites hnever
    | issueToken commonName validityHours sources comment createdBy =>
        exact (spending_keeps s stores).again _ task w hreachable hlaw hpromise
    | _ => exact (spending_keeps s stores).again _ task w hreachable hlaw hpromise

end Conduct

section Run

variable {s : Service} {stores : Stores} {moves : List (Move s.desk)} {a : Attempt} {i : Nat}

/-- What a submission says of itself. -/
theorem underway_of_task {rest : Procedure RequestId}
    (htask : (Office.run stores moves).tasks[i]? = some ⟨a.errand, rest⟩) :
    Underway s i a ((Office.run stores moves).world.calls i) rest :=
  ((Office.abides_run (underway_keeps s stores) moves).tasks i a.errand rest htask).promised

/-- A token that was written as used was spent. -/
theorem spent_of_written {key : String} {entry : Versioned (TableName.Row .tokens)}
    (hwritten : (Office.run stores moves).world.Written .tokens key entry)
    (hused : BootstrapToken.isUsed entry.value = true) :
    ∃ other, .change other .tokens key entry.value firstRevision ∈
      (Office.run stores moves).world.log := by
  cases hwritten with
  | created hcreation =>
      -- Tokens are issued unused.
      obtain ⟨errand, rest, -, hwrites⟩ := writes_of_mem hcreation rfl
      cases hwrites with
      | issued hunused =>
          rw [Versioned.fresh, hunused] at hused
          cases hused
  | @changed other token revision hchange =>
      have hlaw := (Office.abides_run (spending_keeps s stores) moves).lawful
      rw [hlaw.revision_of_change hchange] at hchange
      exact ⟨other, hchange⟩

/-- A token is used if and only if some task has spent it. -/
theorem isUsed_iff_spent {key : String} {entry : Versioned BootstrapToken}
    (hfind : (Office.run stores moves).world.find? .tokens key = some entry) :
    entry.value.isUsed ↔ ∃ other, .change other .tokens key entry.value firstRevision ∈
      (Office.run stores moves).world.log := by
  have habides := Office.abides_run (spending_keeps s stores) moves
  constructor
  · exact spent_of_written (habides.reachable.written hfind)
  · rintro ⟨other, hchange⟩
    exact (habides.lawful.stands_of_change hchange).2.2

/-- What a submission that has ended in an error has left, as its calls to the tables tell. -/
inductive Lost (s : Service) (i : Nat) (a : Attempt) (calls : List Event) (e : CaError) : Prop where
  /-- It has written nothing, and has asked the requests for nothing. -/
  | untouched (hwrites : calls.filter (·.isWrite) = [])
    (hnever : ∀ event ∈ calls, event.effect.writesTo .requests = false)
  /-- It has spent its token and written nothing else, since its request was not entered. -/
  | wasted {id : TokenId} {used : BootstrapToken} (hnames : a.Names s id)
    (hwrites : calls.filter (·.isWrite) = [.change i .tokens id.text used firstRevision])
    (hunfiled : Unfiled i calls e)

theorem lost_of_ended {e : CaError}
    (hended : (Office.run stores moves).Ended i a.errand (.error (.error e))) :
    Lost s i a ((Office.run stores moves).world.calls i) e := by
  obtain ⟨rest, htask, houtcome⟩ := hended
  have hunderway := underway_of_task htask
  rw [Procedure.eq_fail_of_outcome? houtcome] at hunderway
  cases hunderway with
  | unpaid hwrites hnever htold => exact .untouched hwrites hnever
  | paid hnames hwrites hgoing => exact hgoing.elim
  | wasted hnames hwrites hunfiled => exact .wasted hnames hwrites hunfiled

/-- Of the errors for which a request was not entered, those of the storage may be retried. -/
theorem Lost.of_isRetriable {calls : List Event} {e : CaError} (hlost : Lost s i a calls e)
    (hretriable : e.isRetriable) : calls.filter (·.isWrite) = [] ∨
      ∃ message key r, e = .storage message ∧
        ⟨i, .table .requests (.create key r), .error e⟩ ∈ calls := by
  cases hlost with
  | untouched hwrites hnever => exact .inl hwrites
  | wasted hnames hwrites hunfiled =>
      cases hunfiled with
      | taken hcount => cases hretriable
      | @refused key r _ htable hother hrefused =>
          cases e with
          | storage message => exact .inr ⟨message, key, r, rfl, hrefused⟩
          | conflict taken => exact absurd rfl (hother taken)
          | internal message => cases hretriable
          | _ => cases htable

/-- Whoever is told that its token was used has not spent it, but another task has. -/
theorem spent_of_told
    (hended : (Office.run stores moves).Ended i a.errand (.error (.error (.token .alreadyUsed)))) :
    ∃ id other used, a.Names s id ∧ other ≠ i ∧ .change other .tokens id.text used firstRevision ∈
      (Office.run stores moves).world.log := by
  obtain ⟨rest, htask, houtcome⟩ := hended
  have hunderway := underway_of_task htask
  rw [Procedure.eq_fail_of_outcome? houtcome] at hunderway
  cases hunderway with
  | paid hnames hwrites hgoing => exact hgoing.elim
  | wasted hnames hwrites hunfiled =>
      cases hunfiled with
      | refused htable hother hrefused => cases htable
  | unpaid hwrites hnever htold =>
      obtain ⟨id, hnames, read, hused, hread⟩ := htold rfl
      have hreachable := (Office.abides_run (spending_keeps s stores) moves).reachable
      obtain ⟨other, hchange⟩ :=
        spent_of_written (hreachable.written_of_read (World.mem_log_of_mem_calls hread)) hused
      refine ⟨id, other, read.value, hnames, ?_, hchange⟩
      -- Its own change would be among its writes.
      rintro rfl
      have hmem : _ ∈ ((Office.run stores moves).world.calls other).filter (·.isWrite) :=
        (World.mem_filter_isWrite_calls rfl).mpr hchange
      rw [hwrites] at hmem
      cases hmem

/-- A submission as it begins: it reads the clock and its token. -/
theorem submit_eq {csr : ValidatedCsr} {id : TokenId} {rounds : Nat}
    (hcheck : s.checkSubmission a.csrPem a.token a.agentInfo = .ok (csr, id))
    (hrounds : s.redeemRounds = rounds + 1) :
    s.submit a.csrPem a.token a.source a.agentInfo = .call .now fun now =>
      .call (.table .tokens (.get id.text)) fun reply =>
        (Tokens.examine ⟨id, csr.identity.commonName, a.source⟩ now
          (Tokens.redeem ⟨id, csr.identity.commonName, a.source⟩ rounds) reply).bind fun _ =>
            Ledger.submit ⟨csr.pem, csr.identity, a.source, id, a.agentInfo⟩ := by
  simp only [submit, hcheck, hrounds]
  rfl

/-- How a submission goes on that has found its token before its end. -/
theorem outcome_examine_iff {redemption : Tokens.Redemption} {now : Instant}
    {again : Procedure BootstrapToken} {entry : Versioned BootstrapToken}
    {f : BootstrapToken → Procedure RequestId} (hvalid : entry.value.isExpiredAt now = false) :
    ((Tokens.examine redemption now again (.ok (some entry))).bind f).outcome? =
        some (.error (.error (.token .alreadyUsed))) ↔ entry.value.isUsed = true := by
  change ((Tokens.spend redemption now entry again).bind f).outcome? = _ ↔ _
  unfold Tokens.spend
  constructor
  · intro houtcome
    split at houtcome
    · next reason hcheck =>
        cases houtcome
        exact Tokens.isUsed_of_alreadyUsed hcheck
    · cases houtcome
  · intro hused
    rw [Tokens.checkRedeemable_of_used hvalid hused]
    rfl

/-- Whoever submits a request with nothing in between, before the end of a token that is there, is
told at once that it was used if and only if it is. -/
theorem told_iff_isUsed {o : Office s.desk} {id : TokenId} {entry : Versioned BootstrapToken}
    (hnames : a.Names s id) (hrounds : s.redeemRounds ≠ 0)
    (hfind : o.world.find? .tokens id.text = some entry) {first second : Chance}
    (hfault : second.fault = none) (hvalid : entry.value.isExpiredAt first.time = false) :
    (o.after stores [.start a.errand, .advance o.tasks.length first,
        .advance o.tasks.length second]).Ended o.tasks.length a.errand
      (.error (.error (.token .alreadyUsed))) ↔ entry.value.isUsed = true := by
  obtain ⟨csr, hcheck⟩ := hnames
  obtain ⟨rounds, hrounds⟩ := Nat.exists_eq_succ_of_ne_zero hrounds
  have hstarted := Office.task_start stores o a.errand
  rw [show s.desk.procedure a.errand = _ from
    (procedure_submit s _ _ _ _).trans (submit_eq hcheck hrounds)] at hstarted
  have hclock := Office.advance_call stores hstarted first
  have hreply : ((o.world.after stores first o.tasks.length .now).reply stores second
      (.table .tokens (.get id.text))) = .ok (some entry) :=
    (World.reply_of_faultless stores hfault _).trans (congrArg Except.ok hfind)
  change ((Office.advance stores _ o.tasks.length first).advance stores o.tasks.length
    second).Ended _ _ _ ↔ _
  rw [hclock]
  refine (Office.ended_advance_iff (Office.found_set_self hstarted _) second _).trans ?_
  change ((Tokens.examine _ _ _ ((o.world.after stores first o.tasks.length .now).reply stores
    second (.table .tokens (.get id.text)))).bind _).outcome? = _ ↔ _
  rw [hreply]
  exact outcome_examine_iff hvalid

/-- What is certain of submissions that are repeated, after any moves. -/
structure Retrial (s : Service) (stores : Stores) (moves : List (Move s.desk)) : Prop where
  /-- A submission that has ended in an error has left nothing, or has spent its token in vain. -/
  lost : ∀ i (a : Attempt) e, (Office.run stores moves).Ended i a.errand (.error (.error e)) →
    Lost s i a ((Office.run stores moves).world.calls i) e
  /-- If a caller may try again after the error, a token was spent in vain only where the table of
  the requests has answered with it, from its storage. -/
  retriable : ∀ i (a : Attempt) e,
    (Office.run stores moves).Ended i a.errand (.error (.error e)) → e.isRetriable →
      ((Office.run stores moves).world.calls i).filter (·.isWrite) = [] ∨
        ∃ message key r, e = .storage message ∧ ⟨i, .table .requests (.create key r), .error e⟩ ∈
          (Office.run stores moves).world.calls i
  /-- A token is used if and only if a task has spent it. -/
  spent : ∀ (id : TokenId) entry,
    (Office.run stores moves).world.find? .tokens id.text = some entry →
      (entry.value.isUsed = true ↔ ∃ other, .change other .tokens id.text entry.value firstRevision ∈
        (Office.run stores moves).world.log)
  /-- Whoever was told that its token was used has not spent it, but another task has. -/
  told : ∀ i (a : Attempt),
    (Office.run stores moves).Ended i a.errand (.error (.error (.token .alreadyUsed))) →
      ∃ id other used, a.Names s id ∧ other ≠ i ∧
        .change other .tokens id.text used firstRevision ∈ (Office.run stores moves).world.log
  /-- Whoever repeats a submission with nothing in between, on tables that work and before the end
  of its token, is told at once that the token was used if and only if it is. -/
  again : ∀ (a : Attempt) id, a.Names s id → s.redeemRounds ≠ 0 → ∀ entry,
    (Office.run stores moves).world.find? .tokens id.text = some entry →
      ∀ n, n = (Office.run stores moves).tasks.length → ∀ first second : Chance,
        second.fault = none → entry.value.isExpiredAt first.time = false →
          ((Office.run (I := s.desk) stores (moves ++ [.start a.errand, .advance n first,
            .advance n second])).Ended n a.errand (.error (.error (.token .alreadyUsed))) ↔
              entry.value.isUsed = true)

/-- A submission that has failed may be repeated unless its token is used: by another task, or by
itself, which is so if and only if its request was then refused. -/
theorem retrial (s : Service) (stores : Stores) (moves : List (Move s.desk)) :
    Retrial s stores moves where
  lost i a e hended := lost_of_ended hended
  retriable i a e hended hretriable := (lost_of_ended hended).of_isRetriable hretriable
  spent id entry hfind := isUsed_iff_spent hfind
  told i a hended := spent_of_told hended
  again := by
    rintro a id hnames hrounds entry hfind n rfl first second hfault hvalid
    rw [Office.run_append]
    exact told_iff_isUsed hnames hrounds hfind hfault hvalid

end Run

end Service

end CertAuthority
