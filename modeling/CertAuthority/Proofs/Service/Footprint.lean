import CertAuthority.Proofs.Service.Approval
import CertAuthority.Proofs.Service.Filing
import CertAuthority.Proofs.Service.Retrial

/-!
# What a submission leaves

A submission writes to two tables, to each of them once: it marks its token as used, and it enters
its request.  It writes nothing before it has passed its checks and found that its token may be
spent, so that one that is refused leaves every table as it was, and its token may be spent still.
-/

namespace CertAuthority

/-- Whether an error refuses what was asked for, rather than being a failure of the service. -/
def CaError.IsRefusal (e : CaError) : Prop :=
  e.category = .validation ∨ e.category = .authorization

/-- No answer of a table is a refusal. -/
theorem CaError.not_isRefusal_of_isOfTable {e : CaError} (htable : e.isOfTable) :
    ¬ e.IsRefusal := by
  cases e with
  | storage message => simp [IsRefusal, category]
  | conflict key => simp [IsRefusal, category]
  | internal message => simp [IsRefusal, category]
  | _ => cases htable

namespace Tokens

/-- What stands against a redemption at a time, as the tables are. -/
inductive Objection (redemption : Redemption) (tables : MemoryTables) (now : Instant) :
    RedeemError → Prop where
  | unknown (hfind : (tables .tokens).find? redemption.tokenId.text = none) :
    Objection redemption tables now .notFound
  | unfit {held : Versioned BootstrapToken} {reason : RedeemError}
    (hfind : (tables .tokens).find? redemption.tokenId.text = some held)
    (hcheck : held.value.checkRedeemable now redemption.commonName redemption.source =
      .error reason) : Objection redemption tables now reason

/-- The tables after a token was spent. -/
def spending (tables : MemoryTables) (redemption : Redemption) (held : Versioned BootstrapToken)
    (now : Instant) : MemoryTables :=
  Function.update tables .tokens ⟨(tables .tokens).entries.replace redemption.tokenId.text
    (held.overwrite (held.value.markUsed now redemption.commonName redemption.source))⟩

/-- That a token stands in the tables and may be spent. -/
structure Spendable (redemption : Redemption) (tables : MemoryTables)
    (held : Versioned BootstrapToken) (now : Instant) : Prop where
  found : (tables .tokens).find? redemption.tokenId.text = some held
  redeemable : held.value.checkRedeemable now redemption.commonName redemption.source = .ok ()

/-- What a redemption leaves of the tables: it writes nothing, or it spends its token. -/
inductive Left (redemption : Redemption) (stores : Stores) (rounds : Nat) (tables : MemoryTables) :
    Except Failure BootstrapToken → MemoryTables → Prop where
  | refused (now : Instant) {reason : RedeemError}
    (hobjection : Objection redemption tables now reason) :
    Left redemption stores rounds tables (.error (.error (.token reason))) tables
  | failed {e : CaError} (hfailing : stores = .failing) (htable : e.isOfTable) :
    Left redemption stores rounds tables (.error (.error e)) tables
  | unfinished (hagain : stores = .failing ∨ rounds = 0) :
    Left redemption stores rounds tables (.error .unfinished) tables
  | spent {held : Versioned BootstrapToken} {now : Instant}
    (hspendable : Spendable redemption tables held now) :
    Left redemption stores rounds tables
      (.ok (held.value.markUsed now redemption.commonName redemption.source))
      (spending tables redemption held now)

variable {redemption : Redemption} {stores : Stores} {task rounds : Nat} {tables : MemoryTables}
variable {w : World}

/-- Where stores may fail, it may take any number of rounds. -/
theorem Left.succ {outcome : Except Failure BootstrapToken} {later : MemoryTables}
    (hleft : Left redemption .failing rounds tables outcome later) :
    Left redemption .failing (rounds + 1) tables outcome later := by
  cases hleft with
  | refused now hobjection => exact .refused now hobjection
  | failed hfailing htable => exact .failed hfailing htable
  | unfinished hagain => exact .unfinished (.inl rfl)
  | spent hspendable => exact .spent hspendable

/-- Writes the token that was read. -/
theorem leaves_spend {read : Versioned BootstrapToken} {now : Instant}
    {again : Procedure BootstrapToken} (htables : w.tables = tables)
    (hfind : (tables .tokens).find? redemption.tokenId.text = some read)
    (hagain : ∀ found : World, stores = .failing → found.tables = tables →
      again.Leaves stores task (fun outcome later => Left redemption stores rounds tables outcome
        later.tables) (3 * rounds) found) :
    (spend redemption now read again).Leaves stores task
      (fun outcome later => Left redemption stores (rounds + 1) tables outcome later.tables)
      (3 * rounds + 1) w := by
  unfold spend
  split
  · next reason hcheck =>
      apply Procedure.leaves_fail
      rw [htables]
      exact .refused now (.unfit hfind hcheck)
  · next hredeemable =>
      intro chance
      have hheld : w.find? .tokens redemption.tokenId.text = some read := by
        rw [World.find?, htables]
        exact hfind
      generalize hreply : w.reply stores chance (.table .tokens (.update redemption.tokenId.text
        (read.value.markUsed now redemption.commonName redemption.source) read.revision)) = reply
      cases reply with
      | ok revision =>
          apply Procedure.leaves_done
          rw [World.tables_of_changed task hheld hreply, htables]
          exact .spent ⟨hfind, hredeemable⟩
      | error e =>
          have hfailing := World.failing_of_update_error hheld hreply
          obtain ⟨htable, hkept⟩ := World.tables_of_refused task hreply
          rw [htables] at hkept
          unfold written
          split
          · next hok => cases hok
          · subst hfailing
            exact (hagain _ rfl hkept).mono (Nat.le_refl _) fun _ _ hleft => hleft.succ
          · next herror =>
              cases herror
              apply Procedure.leaves_fail
              rw [hkept]
              exact .failed hfailing htable

/-- A redemption writes nothing, or it spends its token. -/
theorem leaves_redeem (redemption : Redemption) (stores : Stores) (task rounds : Nat)
    (htables : w.tables = tables) :
    (redeem redemption rounds).Leaves stores task
      (fun outcome later => Left redemption stores rounds tables outcome later.tables)
      (3 * rounds) w := by
  induction rounds generalizing w with
  | zero =>
      apply Procedure.leaves_fail
      rw [htables]
      exact .unfinished (.inr rfl)
  | succ rounds ih =>
      intro clock reading
      -- Neither reading the clock nor reading the token makes a difference to the tables.
      have hread : ((w.after stores clock task .now).after stores reading task
          (.table .tokens (.get redemption.tokenId.text))).tables = tables :=
        (World.tables_after_of_not_asksWrite _ _ _ _ rfl).trans htables
      have hfound : (w.after stores clock task .now).find? .tokens redemption.tokenId.text =
          (tables .tokens).find? redemption.tokenId.text := by
        rw [← htables]
        rfl
      rcases World.reply_get (w.after stores clock task .now) stores reading .tokens
        redemption.tokenId.text with ⟨e, htable, herror⟩ | hok
      · rw [herror]
        apply Procedure.leaves_fail
        rw [hread]
        exact .failed (World.failing_of_get_error herror) htable
      · rw [hok, hfound]
        cases hfind : (tables .tokens).find? redemption.tokenId.text with
        | none =>
            apply Procedure.leaves_fail
            rw [hread]
            exact .refused clock.time (.unknown hfind)
        | some held =>
            exact leaves_spend hread hfind fun found _ hsame => ih hsame

end Tokens

namespace Ledger

/-- The tables after a request was entered. -/
def filing (tables : MemoryTables) (submission : Submission) (id : RequestId) (now : Instant) :
    MemoryTables :=
  Function.update tables .requests
    ⟨(tables .requests).entries ++ [(id.text, .fresh (submission.entry id now))]⟩

/-- What the attempt to enter a request leaves of the tables. -/
inductive Left (submission : Submission) (tables : MemoryTables) :
    Except Failure RequestId → MemoryTables → Prop where
  | failed {e : CaError} (htable : e.isOfTable) :
    Left submission tables (.error (.error e)) tables
  | filed {id : RequestId} {now : Instant} (hfree : (tables .requests).find? id.text = none) :
    Left submission tables (.ok id) (filing tables submission id now)

variable {submission : Submission} {stores : Stores} {task : Nat} {tables : MemoryTables}
variable {w : World}

/-- Enters the request under an identifier that was drawn. -/
theorem leaves_entered {attempts : Nat} {retry : Procedure RequestId} (htables : w.tables = tables)
    (hretry : ∀ found : World, found.tables = tables → retry.Leaves stores task
      (fun outcome later => Left submission tables outcome later.tables) (3 * attempts) found)
    (id : RequestId) (now : Instant) (chance : Chance) :
    (entered id retry (w.reply stores chance
        (.table .requests (.create id.text (submission.entry id now))))).Leaves stores task
      (fun outcome later => Left submission tables outcome later.tables) (3 * attempts)
      (w.after stores chance task
        (.table .requests (.create id.text (submission.entry id now)))) := by
  generalize hreply : w.reply stores chance
    (.table .requests (.create id.text (submission.entry id now))) = reply
  cases reply with
  | ok revision =>
      have hfree := World.free_of_created hreply
      rw [World.find?, htables] at hfree
      apply Procedure.leaves_done
      rw [World.tables_of_created task hreply, htables]
      exact .filed hfree
  | error e =>
      obtain ⟨htable, hkept⟩ := World.tables_of_refused task hreply
      rw [htables] at hkept
      unfold entered
      split
      · next hok => cases hok
      · exact hretry _ hkept
      · next herror =>
          cases herror
          apply Procedure.leaves_fail
          rw [hkept]
          exact .failed htable

/-- The request is entered, or nothing is, however often its identifier is drawn. -/
theorem leaves_submitFrom (submission : Submission) (stores : Stores) (task attempts : Nat)
    (htables : w.tables = tables) :
    (submitFrom submission attempts).Leaves stores task
      (fun outcome later => Left submission tables outcome later.tables) (3 * attempts) w := by
  induction attempts generalizing w with
  | zero =>
      apply Procedure.leaves_fail
      rw [htables]
      exact .failed rfl
  | succ attempts ih =>
      intro clock tail chance
      -- Neither reading the clock nor drawing bytes makes a difference to the tables.
      have hdrawn : ((w.after stores clock task .now).after stores tail task (.random 4)).tables =
          tables := htables
      exact leaves_entered hdrawn (fun _ hsame => ih hsame) _ clock.time chance

end Ledger

namespace Service

open Tokens (Objection Spendable spending)
open Ledger (filing)
open Versioned (firstRevision)

/-- What a submission asks of its token. -/
def Attempt.redemption (a : Attempt) (csr : ValidatedCsr) : Tokens.Redemption :=
  ⟨⟨Text.trim a.token⟩, csr.identity.commonName, a.source⟩

/-- The request that a submission brings. -/
def Attempt.submission (a : Attempt) (csr : ValidatedCsr) : Ledger.Submission :=
  ⟨a.csrPem, csr.identity, a.source, ⟨Text.trim a.token⟩, a.agentInfo⟩

/-- That a submission passes its checks, and what they have found. -/
def Attempt.Passes (s : Service) (a : Attempt) (csr : ValidatedCsr) : Prop :=
  s.checkSubmission a.csrPem a.token a.agentInfo = .ok (csr, ⟨Text.trim a.token⟩)

/-- What stands against a submission at a time, as the tables are: a check that it does not pass, or
its token. -/
inductive Barred (s : Service) (a : Attempt) (tables : MemoryTables) (now : Instant) :
    CaError → Prop where
  | unsound {e : CaError} (hcheck : s.checkSubmission a.csrPem a.token a.agentInfo = .error e) :
    Barred s a tables now e
  | unspendable {csr : ValidatedCsr} {reason : RedeemError} (hpasses : a.Passes s csr)
    (hobjection : Objection (a.redemption csr) tables now reason) :
    Barred s a tables now (.token reason)

/-- What a submission leaves of the tables. -/
inductive Left (s : Service) (a : Attempt) (stores : Stores) (tables : MemoryTables) :
    Except Failure RequestId → MemoryTables → Prop where
  | refused (now : Instant) {e : CaError} (hbarred : Barred s a tables now e) :
    Left s a stores tables (.error (.error e)) tables
  | failed {e : CaError} (hfailing : stores = .failing) (htable : e.isOfTable) :
    Left s a stores tables (.error (.error e)) tables
  | unfinished (hagain : stores = .failing ∨ s.redeemRounds = 0) :
    Left s a stores tables (.error .unfinished) tables
  /-- Its token is spent, and its request could not be entered. -/
  | wasted {csr : ValidatedCsr} {held : Versioned BootstrapToken} {now : Instant} {e : CaError}
    (hpasses : a.Passes s csr) (hspendable : Spendable (a.redemption csr) tables held now)
    (htable : e.isOfTable) :
    Left s a stores tables (.error (.error e)) (spending tables (a.redemption csr) held now)
  | filed {csr : ValidatedCsr} {held : Versioned BootstrapToken} {now moment : Instant}
    {id : RequestId} (hpasses : a.Passes s csr)
    (hspendable : Spendable (a.redemption csr) tables held now)
    (hfree : (tables .requests).find? id.text = none) :
    Left s a stores tables (.ok id)
      (filing (spending tables (a.redemption csr) held now) (a.submission csr) id moment)

section Alone

variable {s : Service} {a : Attempt} {stores : Stores} {task : Nat} {tables : MemoryTables}
variable {w : World}

/-- As many effects as a submission may take. -/
def effects (s : Service) : Nat :=
  3 * Ledger.maxAttempts + 3 * s.redeemRounds

theorem Barred.isRefusal {now : Instant} {e : CaError} (hbarred : Barred s a tables now e) :
    e.IsRefusal := by
  cases hbarred with
  | unsound hcheck =>
      rcases of_checkSubmission_error hcheck with rfl | hvalidation
      · exact .inr rfl
      · exact .inl hvalidation
  | unspendable hpasses hobjection => exact .inr rfl

/-- A submission that was refused was barred, and has left the tables as they were. -/
theorem Left.barred_of_refusal {e : CaError} {later : MemoryTables}
    (hleft : Left s a stores tables (.error (.error e)) later) (hrefusal : e.IsRefusal) :
    later = tables ∧ ∃ now, Barred s a tables now e := by
  cases hleft with
  | refused now hbarred => exact ⟨rfl, now, hbarred⟩
  | failed hfailing htable => exact absurd hrefusal (CaError.not_isRefusal_of_isOfTable htable)
  | wasted hpasses hspendable htable =>
      exact absurd hrefusal (CaError.not_isRefusal_of_isOfTable htable)

/-- The token is named by the text that is left without the blanks around it. -/
theorem passes_of_checkSubmission {csr : ValidatedCsr} {id : TokenId}
    (hcheck : s.checkSubmission a.csrPem a.token a.agentInfo = .ok (csr, id)) :
    a.Passes s csr ∧ id = ⟨Text.trim a.token⟩ := by
  have hid : id = ⟨Text.trim a.token⟩ := by
    unfold checkSubmission at hcheck
    dsimp only at hcheck
    split at hcheck
    · cases hcheck
    · split at hcheck
      · cases hcheck
      · split at hcheck
        · cases hcheck
        · split at hcheck
          · split at hcheck
            · cases hcheck
            · cases hcheck
              rfl
          · cases hcheck
            rfl
  subst hid
  exact ⟨hcheck, rfl⟩

/-- What is left once the token is spent. -/
theorem left_of_spent {csr : ValidatedCsr} {held : Versioned BootstrapToken} {now : Instant}
    (hpasses : a.Passes s csr) (hspendable : Spendable (a.redemption csr) tables held now)
    {outcome : Except Failure RequestId} {later : MemoryTables}
    (hentered : Ledger.Left (a.submission csr) (spending tables (a.redemption csr) held now) outcome
      later) : Left s a stores tables outcome later := by
  cases hentered with
  | failed htable => exact .wasted hpasses hspendable htable
  | filed hfree =>
      rw [spending, Function.update_of_ne (by decide)] at hfree
      exact .filed hpasses hspendable hfree

/-- What is left if the token is not spent. -/
theorem left_of_unspent {csr : ValidatedCsr} (hpasses : a.Passes s csr) {f : Failure}
    {later : MemoryTables}
    (hleft : Tokens.Left (a.redemption csr) stores s.redeemRounds tables (.error f) later) :
    Left s a stores tables (.error f) later := by
  cases hleft with
  | refused now hobjection => exact .refused now (.unspendable hpasses hobjection)
  | failed hfailing htable => exact .failed hfailing htable
  | unfinished hagain => exact .unfinished hagain

/-- A submission that is done alone comes to an end, and leaves the tables in one of these ways. -/
theorem leaves_submit (s : Service) (a : Attempt) (stores : Stores) (task : Nat)
    (htables : w.tables = tables) :
    (s.submit a.csrPem a.token a.source a.agentInfo).Leaves stores task
      (fun outcome later => Left s a stores tables outcome later.tables) s.effects w := by
  unfold submit
  split
  · next e hcheck =>
      apply Procedure.leaves_fail
      rw [htables]
      exact .refused default (.unsound hcheck)
  · next csr id hcheck =>
      obtain ⟨hpasses, rfl⟩ := passes_of_checkSubmission hcheck
      rw [(validate_of_checkSubmission hcheck).2]
      apply (Tokens.leaves_redeem (a.redemption csr) stores task s.redeemRounds htables).bind
      · intro used found hleft
        generalize hspent : found.tables = after at hleft
        cases hleft with
        | spent hspendable =>
            exact (Ledger.leaves_submitFrom (a.submission csr) stores task Ledger.maxAttempts
              hspent).mono (Nat.le_refl _) fun _ _ hentered => left_of_spent hpasses hspendable
                hentered
      · exact fun f found hleft => left_of_unspent hpasses hleft

/-- A submission that something stands against when the clock is read is refused for it, if its
token can be read. -/
theorem alone_of_barred {clock reading : Chance} {e : CaError}
    (hbarred : Barred s a w.tables clock.time e) (hrounds : s.redeemRounds ≠ 0)
    (hfault : reading.fault = none) (stores : Stores) (task : Nat) (chances : List Chance) :
    ∃ later, (s.submit a.csrPem a.token a.source a.agentInfo).alone stores task
        (clock :: reading :: chances) w = (.fail (.error e), later) ∧ later.tables = w.tables := by
  cases hbarred with
  | unsound hcheck =>
      refine ⟨w, ?_, rfl⟩
      rw [submit, hcheck]
      rfl
  | @unspendable csr reason hpasses hobjection =>
      obtain ⟨rounds, hrounds⟩ := Nat.exists_eq_succ_of_ne_zero hrounds
      refine ⟨(w.after stores clock task .now).after stores reading task
        (.table .tokens (.get (Text.trim a.token))), ?_,
          World.tables_after_of_not_asksWrite _ _ _ _ rfl⟩
      have hreply : (w.after stores clock task .now).reply stores reading
          (.table .tokens (.get (Text.trim a.token))) =
            .ok ((w.tables .tokens).find? (Text.trim a.token)) :=
        World.reply_of_faultless stores hfault _
      rw [submit_eq hpasses hrounds]
      change ((Tokens.examine _ clock.time _ ((w.after stores clock task .now).reply stores reading
        (.table .tokens (.get (Text.trim a.token))))).bind _).alone stores task chances _ = _
      rw [hreply]
      cases hobjection with
      | unknown hfind =>
          rw [show (w.tables .tokens).find? (Text.trim a.token) = none from hfind]
          rfl
      | @unfit held _ hfind hcheck =>
          rw [show (w.tables .tokens).find? (Text.trim a.token) = some held from hfind]
          change ((Tokens.spend _ _ _ _).bind _).alone _ _ _ _ = _
          rw [Tokens.spend, show held.value.checkRedeemable clock.time csr.identity.commonName
            a.source = .error reason from hcheck]
          rfl

/-- What chance decides while a request is submitted, if nothing has to be done twice. -/
structure SubmissionDraws where
  clock : Chance
  /-- When the token is read. -/
  reading : Chance
  swap : Chance
  /-- When the request is submitted. -/
  moment : Chance
  tail : Chance
  entry : Chance

namespace SubmissionDraws

/-- What chance decides, in turn. -/
def inTurn (draws : SubmissionDraws) : List Chance :=
  [draws.clock, draws.reading, draws.swap, draws.moment, draws.tail, draws.entry]

/-- The identifier that is drawn. -/
def requestId (draws : SubmissionDraws) : RequestId :=
  .ofRandom draws.moment.time ((List.range 4).map draws.tail.byte)

end SubmissionDraws

/-- Spends a token that may be spent. -/
theorem alone_spend {redemption : Tokens.Redemption} {held : Versioned BootstrapToken}
    {now : Instant} (hspendable : Spendable redemption w.tables held now)
    (again : Procedure BootstrapToken) (f : BootstrapToken → Procedure RequestId) (swap : Chance)
    (chances : List Chance) (task : Nat) :
    ∃ found, ((Tokens.spend redemption now held again).bind f).alone .reliable task
          (swap :: chances) w =
        (f (held.value.markUsed now redemption.commonName redemption.source)).alone .reliable task
          chances found ∧
      found.tables = spending w.tables redemption held now := by
  obtain ⟨hfind, hredeemable⟩ := hspendable
  obtain ⟨hreply, htables⟩ := World.update_of_current swap task
    (held.value.markUsed now redemption.commonName redemption.source) hfind
  refine ⟨_, ?_, htables⟩
  rw [Tokens.spend, hredeemable]
  change ((Tokens.written _ again (w.reply .reliable swap (.table .tokens
    (.update redemption.tokenId.text (held.value.markUsed now redemption.commonName
      redemption.source) held.revision)))).bind f).alone .reliable task chances _ = _
  rw [hreply]
  rfl

/-- Enters a request under an identifier that is free. -/
theorem alone_submitFrom (submission : Ledger.Submission) (attempts : Nat)
    {moment tail : Chance}
    (hfree : w.find? .requests
      (RequestId.ofRandom moment.time ((List.range 4).map tail.byte)).text = none)
    (entry : Chance) (task : Nat) :
    ∃ later, (Ledger.submitFrom submission (attempts + 1)).alone .reliable task
        [moment, tail, entry] w =
      (.done (RequestId.ofRandom moment.time ((List.range 4).map tail.byte)), later) := by
  let drawn := (w.after .reliable moment task .now).after .reliable tail task (.random 4)
  let id := RequestId.ofRandom moment.time ((List.range 4).map tail.byte)
  have hnew : drawn.find? .requests id.text = none := hfree
  change ∃ later, (Ledger.entered id _ (drawn.reply .reliable entry (.table .requests
    (.create id.text (submission.entry id moment.time))))).alone .reliable task []
      (drawn.after .reliable entry task _) = _
  rw [(World.create_of_new entry task (submission.entry id moment.time) hnew).1]
  exact ⟨_, rfl⟩

/-- A submission that nothing stands against is accepted, if stores do not fail and its identifier
is free. -/
theorem alone_of_spendable {csr : ValidatedCsr} {held : Versioned BootstrapToken}
    {draws : SubmissionDraws} (hpasses : a.Passes s csr)
    (hspendable : Spendable (a.redemption csr) w.tables held draws.clock.time)
    (hrounds : s.redeemRounds ≠ 0) (hfree : w.find? .requests draws.requestId.text = none)
    (task : Nat) :
    ∃ later, (s.submit a.csrPem a.token a.source a.agentInfo).alone .reliable task draws.inTurn w =
      (.done draws.requestId, later) := by
  obtain ⟨rounds, hrounds⟩ := Nat.exists_eq_succ_of_ne_zero hrounds
  -- Neither reading the clock nor reading the token makes a difference to the tables.
  let read := (w.after .reliable draws.clock task .now).after .reliable draws.reading task
    (.table .tokens (.get (Text.trim a.token)))
  have hsame : read.tables = w.tables := World.tables_after_of_not_asksWrite _ _ _ _ rfl
  have hread : Spendable (a.redemption csr) read.tables held draws.clock.time := by
    rwa [hsame]
  rw [submit_eq hpasses hrounds]
  change ∃ later, ((Tokens.examine (a.redemption csr) draws.clock.time _
    (.ok ((w.tables .tokens).find? (Text.trim a.token)))).bind _).alone .reliable task
      [draws.swap, draws.moment, draws.tail, draws.entry] read = _
  rw [show (w.tables .tokens).find? (Text.trim a.token) = some held from hspendable.found]
  obtain ⟨found, halone, htables⟩ := alone_spend hread
    (Tokens.redeem (a.redemption csr) rounds) (fun _ => Ledger.submit
      ⟨csr.pem, csr.identity, a.source, ⟨Text.trim a.token⟩, a.agentInfo⟩) draws.swap
    [draws.moment, draws.tail, draws.entry] task
  have hstill : found.find? .requests draws.requestId.text = none := by
    rw [World.find?, htables, spending, Function.update_of_ne (by decide), hsame]
    exact hfree
  obtain ⟨later, hlater⟩ := alone_submitFrom _ 4 hstill draws.entry task
  exact ⟨later, halone.trans hlater⟩

/-- What a submission that was accepted has made of the tables. -/
structure Settled (a : Attempt) (w later : World) (id : RequestId) (csr : ValidatedCsr)
    (held : Versioned BootstrapToken) (now : Instant) : Prop where
  validated : Csr.validate a.csrPem = .ok csr
  /-- The token that it named was there, and could be spent. -/
  found : w.find? .tokens (Text.trim a.token) = some held
  redeemable : held.value.checkRedeemable now csr.identity.commonName a.source = .ok ()
  /-- It stands where it stood, as used. -/
  tokens : (later.tables .tokens).entries =
    (w.tables .tokens).entries.replace (Text.trim a.token)
      (held.overwrite (held.value.markUsed now csr.identity.commonName a.source))
  used : later.find? .tokens (Text.trim a.token) =
    some (held.overwrite (held.value.markUsed now csr.identity.commonName a.source))
  others : ∀ key, key ≠ Text.trim a.token → later.find? .tokens key = w.find? .tokens key
  free : w.find? .requests id.text = none
  /-- Its request stands behind those that were there. -/
  requests : ∃ r, (later.tables .requests).entries =
      (w.tables .requests).entries ++ [(id.text, .fresh r)] ∧
    Brings a.csrPem a.source a.agentInfo id r ∧ r.subject = csr.identity ∧
    r.bootstrapTokenId.text = Text.trim a.token
  certificates : later.tables .certificates = w.tables .certificates
  revocations : later.tables .revocations = w.tables .revocations

theorem settled_of_filing {csr : ValidatedCsr} {held : Versioned BootstrapToken}
    {now moment : Instant} {id : RequestId} {later : World} (hpasses : a.Passes s csr)
    (hspendable : Spendable (a.redemption csr) w.tables held now)
    (hfree : (w.tables .requests).find? id.text = none)
    (hlater : later.tables = filing (spending w.tables (a.redemption csr) held now)
      (a.submission csr) id moment) : Settled a w later id csr held now := by
  have htokens : (later.tables .tokens).entries =
      (w.tables .tokens).entries.replace (Text.trim a.token)
        (held.overwrite (held.value.markUsed now csr.identity.commonName a.source)) := by
    rw [hlater, filing, Function.update_of_ne (by decide), spending, Function.update_self]
    rfl
  constructor
  · exact (validate_of_checkSubmission hpasses).1
  · exact hspendable.found
  · exact hspendable.redeemable
  · exact htokens
  · exact (congrArg (Entries.find? · _) htokens).trans
      (Entries.find?_replace_self _ hspendable.found)
  · intro key hkey
    exact (congrArg (Entries.find? · _) htokens).trans (Entries.find?_replace_of_ne _ _ hkey)
  · exact hfree
  · refine ⟨(a.submission csr).entry id moment, ?_, ⟨rfl, rfl, rfl, rfl, rfl⟩, rfl, rfl⟩
    rw [hlater, filing, Function.update_self, spending, Function.update_of_ne (by decide)]
  · rw [hlater, filing, Function.update_of_ne (by decide), spending,
      Function.update_of_ne (by decide)]
  · rw [hlater, filing, Function.update_of_ne (by decide), spending,
      Function.update_of_ne (by decide)]

end Alone

section Run

variable {s : Service} {stores : Stores} {moves : List (Move s.desk)} {a : Attempt} {i : Nat}

/-- A submission that was refused has written nothing, whatever came in between. -/
theorem not_written_of_refused {e : CaError}
    (hended : (Office.run stores moves).Ended i a.errand (.error (.error e)))
    (hrefusal : e.IsRefusal) :
    ((Office.run stores moves).world.calls i).filter (·.isWrite) = [] := by
  cases lost_of_ended hended with
  | untouched hwrites hnever => exact hwrites
  | wasted hnames hwrites hunfiled =>
      cases hunfiled with
      | taken hcount => exact absurd hrefusal (CaError.not_isRefusal_of_isOfTable rfl)
      | refused htable hother hrefused =>
          exact absurd hrefusal (CaError.not_isRefusal_of_isOfTable htable)

/-- A submission that was accepted has written its token and its request, and nothing else. -/
theorem written_of_done {id : RequestId}
    (hended : (Office.run stores moves).Ended i a.errand (.ok id)) :
    ∃ csr used now, a.Passes s csr ∧
      ((Office.run stores moves).world.calls i).filter (·.isWrite) =
        [.change i .tokens (Text.trim a.token) used firstRevision,
          .creation i .requests id.text ((a.submission csr).entry id now)] := by
  obtain ⟨rest, htask, houtcome⟩ := hended
  have hsubmitting : Submitting s i a.csrPem a.token a.source a.agentInfo
      (((Office.run stores moves).world.calls i).filter (·.isWrite)) rest :=
    submitting_of_submit htask
  rw [Procedure.eq_done_of_outcome? houtcome] at hsubmitting
  generalize ((Office.run stores moves).world.calls i).filter (·.isWrite) = writes
    at hsubmitting ⊢
  cases hsubmitting with
  | idle hrest => exact absurd rfl (hrest id)
  | paid hcheck hrest => exact hrest.elim
  | @filed csr tokenId used _ now hcheck =>
      obtain ⟨hpasses, rfl⟩ := passes_of_checkSubmission hcheck
      rw [(validate_of_checkSubmission hcheck).2]
      exact ⟨csr, used, now, hpasses, rfl⟩

/-- What a submission leaves. -/
structure Footprint (s : Service) (a : Attempt) : Prop where
  /-- Done alone, whatever the tables hold, a submission comes to an end, or to the end of its
  rounds. -/
  ends : ∀ stores task chances w, s.effects ≤ chances.length → ∃ outcome later,
    (s.submit a.csrPem a.token a.source a.agentInfo).alone stores task chances w =
      (.ended outcome, later)
  /-- If something stands against it, a check or its token, it is refused for that, -/
  barred : ∀ w (clock reading : Chance) e, Barred s a w.tables clock.time e →
    s.redeemRounds ≠ 0 → reading.fault = none → e.IsRefusal ∧ ∀ stores task chances, ∃ later,
      (s.submit a.csrPem a.token a.source a.agentInfo).alone stores task
        (clock :: reading :: chances) w = (.fail (.error e), later)
  /-- and one that is refused leaves all tables as they were. -/
  refused : ∀ stores task chances w e later, e.IsRefusal →
    (s.submit a.csrPem a.token a.source a.agentInfo).alone stores task chances w =
      (.fail (.error e), later) → later.tables = w.tables ∧ ∃ now, Barred s a w.tables now e
  /-- One that is accepted marks its token as used and enters its request. -/
  accepted : ∀ stores task chances w id later,
    (s.submit a.csrPem a.token a.source a.agentInfo).alone stores task chances w =
      (.done id, later) → ∃ csr held now, Settled a w later id csr held now
  /-- If nothing stands against it, it is accepted where stores do not fail and the identifier that it
  draws is free. -/
  granted : ∀ w csr held (draws : SubmissionDraws), a.Passes s csr →
    Spendable (a.redemption csr) w.tables held draws.clock.time → s.redeemRounds ≠ 0 →
      w.find? .requests draws.requestId.text = none → ∀ task, ∃ later,
        (s.submit a.csrPem a.token a.source a.agentInfo).alone .reliable task draws.inTurn w =
          (.done draws.requestId, later)
  /-- Whatever comes in between, one that was refused has written nothing, -/
  refusedAmid : ∀ stores (moves : List (Move s.desk)) i e,
    (Office.run stores moves).Ended i a.errand (.error (.error e)) → e.IsRefusal →
      ((Office.run stores moves).world.calls i).filter (·.isWrite) = []
  /-- and one that was accepted its token and its request. -/
  acceptedAmid : ∀ stores (moves : List (Move s.desk)) i id,
    (Office.run stores moves).Ended i a.errand (.ok id) → ∃ csr used now, a.Passes s csr ∧
      ((Office.run stores moves).world.calls i).filter (·.isWrite) =
        [.change i .tokens (Text.trim a.token) used firstRevision,
          .creation i .requests id.text ((a.submission csr).entry id now)]

/-- A submission that is refused leaves nothing; one that is accepted leaves its token used and its
request entered. -/
theorem footprint (s : Service) (a : Attempt) : Footprint s a where
  ends := by
    intro stores task chances w hchances
    exact (leaves_submit s a stores task rfl).exists_ended hchances
  barred := by
    intro w clock reading e hbarred hrounds hfault
    refine ⟨hbarred.isRefusal, fun stores task chances => ?_⟩
    obtain ⟨later, halone, -⟩ := alone_of_barred hbarred hrounds hfault stores task chances
    exact ⟨later, halone⟩
  refused := by
    intro stores task chances w e later hrefusal halone
    exact ((leaves_submit s a stores task rfl).of_alone halone).barred_of_refusal hrefusal
  accepted := by
    intro stores task chances w id later halone
    have hleft : Left s a stores w.tables (.ok id) later.tables :=
      (leaves_submit s a stores task rfl).of_alone halone
    generalize hlater : later.tables = after at hleft
    cases hleft with
    | filed hpasses hspendable hfree =>
        exact ⟨_, _, _, settled_of_filing hpasses hspendable hfree hlater⟩
  granted := by
    intro w csr held draws hpasses hspendable hrounds hfree task
    exact alone_of_spendable hpasses hspendable hrounds hfree task
  refusedAmid := by
    intro stores moves i e hended hrefusal
    exact not_written_of_refused hended hrefusal
  acceptedAmid := by
    intro stores moves i id hended
    exact written_of_done hended

end Run

end Service

end CertAuthority
