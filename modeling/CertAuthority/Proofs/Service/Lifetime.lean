import CertAuthority.Proofs.Authority.Lifetime
import CertAuthority.Proofs.Csr.Checks
import CertAuthority.Proofs.Office.Told
import CertAuthority.Proofs.Service.Accountability
import CertAuthority.Proofs.Service.Approval
import CertAuthority.Proofs.Token.Conduct

/-!
# How far the days of a policy may reach

The rules of a configuration bound the usual days of a certificate, and those of a renewal, by the
most that are allowed, and an approval bounds the days that it is given in the same way.  Nothing
bounds the most that are allowed.  So what is allowed may end after the last date that a certificate
can give, and then it is not signed for.  Whether this happens depends on what the clock shows and
on these days alone; and as long as the clock shows no year after 2200, it takes millions of them.
-/

namespace CertAuthority

/-- No rule of a configuration bounds the most days that are allowed. -/
theorem Config.isValid_days {c : Config} (hvalid : c.isValid) {usual renewal most : Nat}
    (husual : 0 < usual ∧ usual ≤ most) (hrenewal : 0 < renewal ∧ renewal ≤ most) :
    ({ c with issuance := { c.issuance with
      defaultValidityDays := usual, maxValidityDays := most, renewalValidityDays := renewal } } :
        Config).isValid := by
  have hnone : c.fault? = none := Option.isNone_iff_eq_none.mp hvalid
  obtain ⟨husual', hrenewal'⟩ := days_of_isValid hvalid
  have hkept {days most : Nat} (hdays : 0 < days ∧ days ≤ most) :
      most ≠ 0 ∧ ¬ (days = 0 ∨ most < days) := by omega
  rw [isValid, Option.isNone_iff_eq_none, ← hnone]
  simp only [fault?, hkept husual, hkept hrenewal, hkept husual', hkept hrenewal', if_false]

/-- An error that is given for a date. -/
def CaError.IsOfDate (e : CaError) : Prop :=
  ∃ now days, e = Issuance.complaint now days

/-- Errors of other categories are not given for dates. -/
theorem CaError.not_isOfDate {e : CaError} (hsigning : e.category ≠ .signing)
    (hinternal : e.category ≠ .internal) : ¬ e.IsOfDate := by
  rintro ⟨now, days, rfl⟩
  unfold Issuance.complaint at hsigning hinternal
  split at hsigning
  · exact hsigning rfl
  · next hdates =>
      rw [if_neg hdates] at hinternal
      exact hinternal rfl

/-- What is wrong with what was asked for is no matter of dates. -/
theorem CaError.not_isOfDate_of_validation {e : CaError} (he : e.category = .validation) :
    ¬ e.IsOfDate :=
  not_isOfDate (by simp [he]) (by simp [he])

/-- To fail for no date, unless a table fails. -/
def Punctual {α : Type} (stores : Stores) (outcome : Except Failure α) : Prop :=
  stores = .reliable → ∀ e, outcome = .error (.error e) → ¬ e.IsOfDate

section Punctual

variable {α β : Type} {stores : Stores} {e : CaError}

theorem Punctual.ok (a : α) : Punctual stores (.ok a : Except Failure α) :=
  fun _ _ => nofun

theorem Punctual.of_not_isOfDate (he : ¬ e.IsOfDate) :
    Punctual stores (.error (.error e) : Except Failure α) := by
  intro _ other hother
  cases hother
  exact he

/-- A failure is what it is whatever a procedure was to give. -/
theorem Punctual.failure {f : Failure} (hpunctual : Punctual stores (.error f : Except Failure β)) :
    Punctual stores (.error f : Except Failure α) := by
  intro hreliable e he
  cases he
  exact hpunctual hreliable e rfl

theorem Punctual.bind {p : Procedure β} {f : β → Procedure α}
    (hp : p.EndsAs stores (Punctual stores)) (hf : ∀ b, (f b).EndsAs stores (Punctual stores)) :
    (p.bind f).EndsAs stores (Punctual stores) :=
  Procedure.EndsAs.bind hp (fun _ => Punctual.failure) hf

theorem Punctual.bind_unless {told : (e : Effect) → e.Reply → Prop} {p : Procedure β}
    {f : β → Procedure α} (hp : p.Unless stores told (Punctual stores))
    (hf : ∀ b, (f b).Unless stores told (Punctual stores)) :
    (p.bind f).Unless stores told (Punctual stores) :=
  Procedure.Unless.bind hp (fun _ => Punctual.failure) hf

theorem Procedure.endsAs_done (a : α) : (Procedure.done a).EndsAs stores (Punctual stores) :=
  .ok a

theorem Procedure.endsAs_error (he : ¬ e.IsOfDate) :
    (Procedure.error e : Procedure α).EndsAs stores (Punctual stores) :=
  ⟨nofun, .of_not_isOfDate he⟩

theorem Procedure.endsAs_ofExcept {result : Except CaError α}
    (hresult : ∀ e, result = .error e → ¬ e.IsOfDate) :
    (ofExcept result).EndsAs stores (Punctual stores) := by
  cases result with
  | ok a => exact .ok a
  | error e => exact endsAs_error (hresult e rfl)

theorem Procedure.endsAs_query (name : TableName) (call : TableCall name.Row) :
    (query name call).EndsAs stores (Punctual stores) := by
  intro w chance
  cases hreply : w.reply stores chance (.table name call) with
  | ok payload => exact .ok payload
  | error e =>
      refine ⟨nofun, ?_⟩
      rintro rfl
      rw [World.eq_conflict_of_error hreply]
      exact Punctual.of_not_isOfDate (CaError.not_isOfDate nofun nofun) rfl

end Punctual

theorem CertificateRequest.not_isOfDate_of_ensurePending {r : CertificateRequest} {e : CaError}
    (herror : r.ensurePending = .error e) : ¬ e.IsOfDate := by
  unfold ensurePending at herror
  split at herror
  · cases herror
    exact CaError.not_isOfDate nofun nofun
  · cases herror

theorem CertificateRequest.not_isOfDate_of_markApproved {r : CertificateRequest}
    {issued : IssuedCertificate} {approver comment : String} {now : Instant} {e : CaError}
    (herror : r.markApproved issued approver comment now = .error e) : ¬ e.IsOfDate := by
  cases hpending : r.ensurePending with
  | ok pending =>
      rw [markApproved, hpending] at herror
      cases herror
  | error other =>
      rw [markApproved, hpending] at herror
      cases herror
      exact not_isOfDate_of_ensurePending hpending

namespace Ledger.Approval

variable {approval : Approval} {most : Nat}

theorem category_of_check {e : CaError} (herror : approval.check most = .error e) :
    e.category = .validation := by
  unfold check requirePrincipal at herror
  split at herror
  · next hblank =>
      split at hblank
      · cases herror
        cases hblank
        rfl
      · cases hblank
  · split at herror
    · cases herror
      rfl
    · cases herror

/-- All days up to the most that are allowed pass the check. -/
theorem check_eq_ok (hnamed : Text.isAllBlank approval.approver = false)
    (hdays : 0 < approval.days ∧ approval.days ≤ most) : approval.check most = .ok () := by
  have hallowed : ¬ (approval.days = 0 ∨ most < approval.days) := by omega
  simp only [check, requirePrincipal, hnamed, Bool.false_eq_true, if_false, hallowed]

end Ledger.Approval

namespace Service

open Procedure (EndsAs Unless Turning)
open Issuance (Late complaint lastSecond)
open Tokens (clock)

/-- Being told a time from which some days end too late, or one that is not in use. -/
def TooLate (days : Nat) : (e : Effect) → e.Reply → Prop
  | .now, now => now.InUse → Late now days
  | _, _ => False

theorem TooLate.reading {days : Nat} {event : Event}
    (hlate : TooLate days event.effect event.reply) :
    ∃ now, event = clock event.task now ∧ (now.InUse → Late now days) := by
  obtain ⟨task, e, reply⟩ := event
  cases e with
  | now => exact ⟨reply, rfl, hlate⟩
  | _ => exact hlate.elim

section Ends

variable {s : Service} {stores : Stores}

/-- A signature fails for a date only if the clock shows a time that is too late for the days. -/
theorem unless_sign (a : Authority) (csrPem : String) (days : Nat) (issuer : CertificateIssuer) :
    (a.sign csrPem days issuer).Unless stores (TooLate days) (Punctual stores) := by
  intro w chance
  have hends : (a.sign csrPem days issuer).EndsWithin 3 := endsWithin_sign a csrPem days issuer
  refine ⟨fun _ => (hends _).endsAs, fun hearly => ?_⟩
  obtain ⟨hnow, htimely⟩ := Classical.not_imp.mp hearly
  have hsign (draw : Issuance.Draw) : (Authority.ofTask (Issuance.sign a csrPem days issuer
      (w.reply stores chance .now) draw)).EndsAs stores (Punctual stores) := by
    cases hsigned : Issuance.sign a csrPem days issuer (w.reply stores chance .now) draw with
    | ok issued => exact .ok issued
    | error f =>
        obtain ⟨text, rfl, htext⟩ := Issuance.isTimely_of_sign hnow htimely hsigned
        refine Procedure.endsAs_error ?_
        rintro ⟨other, count, hsame⟩
        unfold complaint at hsame
        split at hsame
        · exact htext (CaError.signing.inj hsame)
        · cases hsame
  -- The bytes that are drawn then tell nothing of the time.
  exact fun _ _ => ⟨False.elim, fun _ _ _ => ⟨False.elim, fun _ => (hsign _).unless⟩⟩

theorem endsAs_record (issued : IssuedCertificate) :
    ((Registry.record issued).bind fun _ => Procedure.done issued).EndsAs stores
      (Punctual stores) := by
  have hrecord : (Registry.record issued).EndsAs stores (Punctual stores) :=
    Punctual.bind (Procedure.endsAs_query _ _) fun _ => Procedure.endsAs_done ()
  exact Punctual.bind hrecord fun _ => Procedure.endsAs_done issued

theorem endsAs_find (id : RequestId) : (Ledger.find id).EndsAs stores (Punctual stores) := by
  refine Punctual.bind (Procedure.endsAs_query _ _) fun found => ?_
  cases found with
  | none => exact Procedure.endsAs_error (CaError.not_isOfDate nofun nofun)
  | some entry => exact Procedure.endsAs_done entry

theorem endsAs_commit (approval : Ledger.Approval) (current : Versioned CertificateRequest)
    (issued : IssuedCertificate) :
    (Ledger.commit approval current issued).EndsAs stores (Punctual stores) := by
  have hclock : Procedure.now.EndsAs stores (Punctual stores) :=
    fun _ _ => Procedure.endsAs_done _
  refine Punctual.bind hclock fun now => ?_
  refine Punctual.bind (Procedure.endsAs_ofExcept fun e => ?_) fun decided => ?_
  · exact CertificateRequest.not_isOfDate_of_markApproved
  · exact Punctual.bind (Procedure.endsAs_query _ _) fun _ => endsAs_record issued

theorem unless_decide (approval : Ledger.Approval) :
    (Ledger.decide s.authority.sign approval).Unless stores (TooLate approval.days)
      (Punctual stores) := by
  refine Punctual.bind_unless (endsAs_find _).unless fun current => ?_
  have hpending : (Procedure.ofExcept current.value.ensurePending).EndsAs stores
      (Punctual stores) :=
    Procedure.endsAs_ofExcept fun _ => CertificateRequest.not_isOfDate_of_ensurePending
  refine Punctual.bind_unless hpending.unless fun _ => ?_
  refine Punctual.bind_unless (unless_sign _ _ _ _) fun issued => ?_
  exact (endsAs_commit approval current issued).unless

/-- An approval that passes its check fails for a date only if it is told a time too late. -/
theorem unless_approve {approval : Ledger.Approval}
    (hcheck : approval.check s.issuance.maxValidityDays = .ok ()) :
    (Ledger.approve s.authority.sign s.issuance.maxValidityDays approval).Unless stores
      (TooLate approval.days) (Punctual stores) := by
  rw [Ledger.approve, hcheck]
  exact fun _ _ => ⟨False.elim, fun _ => (unless_decide approval).ensuring fun _ => id⟩

theorem endsAs_checkRevocation (caller : CallerIdentity) :
    (Renewal.checkRevocation caller).EndsAs stores (Punctual stores) := by
  have hrevoked (serial : SerialNumber) :
      (Registry.isRevoked serial).EndsAs stores (Punctual stores) :=
    Punctual.bind (Procedure.endsAs_query _ _) fun _ => Procedure.endsAs_done _
  unfold Renewal.checkRevocation
  split
  · exact Procedure.endsAs_done ()
  · next serial hserial =>
      refine Punctual.bind (hrevoked serial) fun revoked => ?_
      cases revoked with
      | true => exact Procedure.endsAs_error (CaError.not_isOfDate nofun nofun)
      | false => exact Procedure.endsAs_done ()

/-- A renewal fails for a date only if it is told a time too late. -/
theorem unless_renew (csrPem : String) (caller : CallerIdentity) :
    (s.renew csrPem caller).Unless stores (TooLate s.issuance.renewalValidityDays)
      (Punctual stores) := by
  unfold renew Renewal.renew
  split
  · next e hinvalid =>
      exact (Procedure.endsAs_error (CaError.not_isOfDate_of_validation
        (Csr.category_of_validate hinvalid))).unless
  · split
    · apply EndsAs.unless
      exact Procedure.endsAs_error (CaError.not_isOfDate nofun nofun)
    · refine Punctual.bind_unless (endsAs_checkRevocation caller).unless fun _ => ?_
      refine Punctual.bind_unless (unless_sign _ _ _ _) fun issued => ?_
      exact (endsAs_record issued).unless

/-- Whether an errand asks for a signature. -/
def Errand.isForSignature : Errand → Bool
  | .renew _ _ | .approve _ _ _ _ => true
  | _ => false

/-- The days that an errand has a certificate signed for, once they are found to be allowed. -/
def signedDays? (s : Service) : Errand → Option Nat
  | .approve id approver given? comment =>
    match (s.approval id approver given? comment).check s.issuance.maxValidityDays with
    | .ok () => some (given?.getD s.issuance.defaultValidityDays)
    | .error _ => none
  | .renew _ _ => some s.issuance.renewalValidityDays
  | _ => none

theorem signedDays?_approve {id : RequestId} {approver : String} {given? : Option Nat}
    {comment : String} {days : Nat} :
    s.signedDays? (.approve id approver given? comment) = some days ↔
      (s.approval id approver given? comment).check s.issuance.maxValidityDays = .ok () ∧
        given?.getD s.issuance.defaultValidityDays = days := by
  simp only [signedDays?]
  split
  · next hcheck => simp [hcheck]
  · next hcheck => simp [hcheck]

/-- What an errand is told that is too late for the days that it has signed for. -/
def LateFor (s : Service) (errand : Errand) (e : Effect) (reply : e.Reply) : Prop :=
  ∃ days, s.signedDays? errand = some days ∧ TooLate days e reply

theorem lateFor_eq {errand : Errand} {days : Nat} (hdays : s.signedDays? errand = some days) :
    s.LateFor errand = TooLate days := by
  funext e reply
  simp [LateFor, hdays]

theorem unless_perform {errand : Errand} (herrand : errand.isForSignature) :
    (s.perform errand).Unless stores (s.LateFor errand) (Punctual stores) := by
  cases errand with
  | renew csrPem caller =>
      rw [lateFor_eq (show s.signedDays? (.renew csrPem caller) = some _ from rfl)]
      exact unless_renew csrPem caller
  | approve id approver given? comment =>
      change (Ledger.approve _ _ (s.approval id approver given? comment)).Unless _ _ _
      cases hcheck : (s.approval id approver given? comment).check s.issuance.maxValidityDays with
      | ok allowed =>
          rw [lateFor_eq (signedDays?_approve.mpr ⟨hcheck, rfl⟩)]
          -- The days are those of the approval, once it is known which one.
          have happrove := @unless_approve s stores _ hcheck
          exact happrove
      | error e =>
          simp only [Ledger.approve, hcheck]
          exact (Procedure.endsAs_error (CaError.not_isOfDate_of_validation
            (Ledger.Approval.category_of_check hcheck))).unless
  | _ => cases herrand

/-- What an errand that asks for a signature says of how it ends. -/
def lifetimePromise (s : Service) (stores : Stores) : s.desk.Promises :=
  fun errand _ past rest => errand.isForSignature →
    Turning stores (s.LateFor errand) (Punctual stores) (fun _ => True) past rest

theorem lifetime_keeps (s : Service) (stores : Stores) :
    s.desk.Keeps (fun _ => True) stores (s.lifetimePromise stores) where
  empty := trivial
  start := by
    intro errand task w _ _ hpast
    by_cases herrand : errand.isForSignature
    · have huntold : ∀ event ∈ w.past task, ¬ s.LateFor errand event.effect event.reply := by
        rw [hpast]
        exact List.forall_mem_nil _
      exact ((unless_perform herrand).keeps huntold).mono fun _ _ hturning _ => hturning
    · exact (Procedure.keeps_nothing _ _).mono fun _ _ _ hsigned => (herrand hsigned).elim
  again := by
    intro errand task w _ _ hpromise
    by_cases herrand : errand.isForSignature
    · exact ((hpromise herrand).ne_unfinished rfl).elim
    · exact (Procedure.keeps_nothing _ _).mono fun _ _ _ hsigned => (herrand hsigned).elim

end Ends

section Run

variable {s : Service} {stores : Stores} {moves : List (Move s.desk)}

/-- How far the days of a policy reach, after any moves.  Where an approval or a renewal is said to
be done, it is done with nothing in between, and stores do not fail then. -/
structure Lifetimes (s : Service) (stores : Stores) (moves : List (Move s.desk)) : Prop where
  /-- Whatever is signed for is among the days that are allowed, -/
  bounded : ∀ errand days, s.signedDays? errand = some days →
    0 < days ∧ days ≤ s.issuance.maxValidityDays
  /-- and whoever approves may have all of these, or the usual ones. -/
  allowed : ∀ id approver given? comment, Text.isAllBlank approver = false →
    (∀ days, given? = some days → 0 < days ∧ days ≤ s.issuance.maxValidityDays) →
      s.signedDays? (.approve id approver given? comment) =
        some (given?.getD s.issuance.defaultValidityDays)
  /-- All that are allowed end in time, whenever they begin, if and only if they are no more than
  there are from the year 2200 on. -/
  issuable : (∀ now : Instant, now.InUse → ∀ days, 0 < days →
    days ≤ s.issuance.maxValidityDays → ¬ Late now days) ↔
      s.issuance.maxValidityDays ≤ Issuance.reach
  /-- An approval for days that end too late fails for that, and changes nothing; -/
  unapproved : ∀ id r, Awaits (Office.run stores moves).world id r → Csr.IsSignable r.csrPem →
    ∀ approver given? comment days draws,
      s.signedDays? (.approve id approver given? comment) = some days →
      draws.clock.time.InUse → Late draws.clock.time days →
        (approving (Office.run stores moves) id approver given? comment draws).Ended
            (Office.run stores moves).tasks.length (.approve id approver given? comment)
            (.error (.error (complaint draws.clock.time days))) ∧
          (approving (Office.run stores moves) id approver given? comment draws).world.tables =
            (Office.run stores moves).world.tables
  /-- one for days that end in time succeeds, if the key signs and the serial number is new. -/
  approved : ∀ id r, Awaits (Office.run stores moves).world id r → Csr.IsSignable r.csrPem →
    ∀ approver given? comment days draws,
      s.signedDays? (.approve id approver given? comment) = some days →
      draws.clock.time.InUse → ¬ Late draws.clock.time days →
      Issuance.KeySigns s.authority r.csrPem days draws.clock.time draws.draw →
      (Office.run stores moves).world.find? .certificates
        (SerialNumber.ofBytes draws.draw.serial).text = none →
          ∃ issued,
            (approving (Office.run stores moves) id approver given? comment draws).Ended
              (Office.run stores moves).tasks.length (.approve id approver given? comment)
              (.ok issued) ∧
            Approved (Office.run stores moves).world
              (approving (Office.run stores moves) id approver given? comment draws).world id r
              issued
  /-- It is the same with renewals that are granted. -/
  unrenewed : ∀ csrPem caller, Granted (Office.run stores moves).world csrPem caller →
    Csr.IsSignable csrPem → ∀ draws : Draws, draws.clock.time.InUse →
      Late draws.clock.time s.issuance.renewalValidityDays →
        (renewing (Office.run stores moves) csrPem caller draws).Ended
            (Office.run stores moves).tasks.length (.renew csrPem caller)
            (.error (.error (complaint draws.clock.time s.issuance.renewalValidityDays))) ∧
          (renewing (Office.run stores moves) csrPem caller draws).world.tables =
            (Office.run stores moves).world.tables
  renewed : ∀ csrPem caller, Granted (Office.run stores moves).world csrPem caller →
    Csr.IsSignable csrPem → ∀ draws : Draws, draws.clock.time.InUse →
      ¬ Late draws.clock.time s.issuance.renewalValidityDays →
      Issuance.KeySigns s.authority csrPem s.issuance.renewalValidityDays draws.clock.time
        draws.draw →
      (Office.run stores moves).world.find? .certificates
        (SerialNumber.ofBytes draws.draw.serial).text = none →
          ∃ issued,
            (renewing (Office.run stores moves) csrPem caller draws).Ended
              (Office.run stores moves).tasks.length (.renew csrPem caller) (.ok issued) ∧
            Renewed s (Office.run stores moves).world
              (renewing (Office.run stores moves) csrPem caller draws).world issued
  /-- Whatever comes in between, whoever fails for a date was shown a time that is too late for the
  days that are signed for; only a table that fails may give such an error as well. -/
  blamed : stores = .reliable → ∀ task errand e, errand.isForSignature →
    (Office.run stores moves).Ended task errand (.error (.error e)) → e.IsOfDate →
      ∃ days now, s.signedDays? errand = some days ∧
        clock task now ∈ (Office.run stores moves).world.past task ∧ Late now days
  /-- Nobody fails for a date as long as no more days are allowed than there are from the year 2200
  on. -/
  within : stores = .reliable → s.issuance.maxValidityDays ≤ Issuance.reach →
    ∀ task errand e, errand.isForSignature →
      (Office.run stores moves).Ended task errand (.error (.error e)) → ¬ e.IsOfDate
  /-- All that was signed ends in time. -/
  held : ∀ key entry, (Office.run stores moves).world.find? .certificates key = some entry →
    (IssuedCertificate.expiresAt entry.value).seconds ≤ lastSecond

/-- The days that a valid configuration has signed for are allowed by it. -/
theorem bounded_of_isValid {c : Config} (hvalid : c.isValid) (hpolicy : s.issuance = c.issuance)
    {errand : Errand} {days : Nat} (hdays : s.signedDays? errand = some days) :
    0 < days ∧ days ≤ s.issuance.maxValidityDays := by
  cases errand with
  | renew csrPem caller =>
      cases hdays
      rw [hpolicy]
      exact (Config.days_of_isValid hvalid).2
  | approve id approver given? comment =>
      obtain ⟨hcheck, rfl⟩ := signedDays?_approve.mp hdays
      exact Ledger.Approval.days_of_check hcheck
  | _ => cases hdays

theorem allowed_of_isValid {c : Config} (hvalid : c.isValid) (hpolicy : s.issuance = c.issuance)
    {approver : String} (hnamed : Text.isAllBlank approver = false) {given? : Option Nat}
    (hgiven : ∀ days, given? = some days → 0 < days ∧ days ≤ s.issuance.maxValidityDays)
    (id : RequestId) (comment : String) :
    s.signedDays? (.approve id approver given? comment) =
      some (given?.getD s.issuance.defaultValidityDays) := by
  refine signedDays?_approve.mpr ⟨Ledger.Approval.check_eq_ok hnamed ?_, rfl⟩
  cases given? with
  | none =>
      change 0 < s.issuance.defaultValidityDays ∧ s.issuance.defaultValidityDays ≤ _
      rw [hpolicy]
      exact (Config.days_of_isValid hvalid).1
  | some days => exact hgiven days rfl

/-- The most days that are allowed end last. -/
theorem issuable_iff {most : Nat} (hmost : 0 < most) :
    (∀ now : Instant, now.InUse → ∀ days, 0 < days → days ≤ most → ¬ Late now days) ↔
      most ≤ Issuance.reach := by
  constructor
  · intro hall
    exact (Issuance.not_late_iff most).mp fun now hnow => hall now hnow most hmost le_rfl
  · intro hreach now hnow days _ hdays
    exact (Issuance.not_late_iff days).mpr (hdays.trans hreach) now hnow

/-- Whoever has failed for a date was shown a time that is too late. -/
theorem late_of_isOfDate (hclock : ∀ i chance, .advance i chance ∈ moves → chance.time.InUse)
    (hreliable : stores = .reliable) {task : Nat} {errand : Errand} {e : CaError}
    (herrand : errand.isForSignature)
    (hended : (Office.run stores moves).Ended task errand (.error (.error e)))
    (hdate : e.IsOfDate) :
    ∃ days now, s.signedDays? errand = some days ∧
      clock task now ∈ (Office.run stores moves).world.past task ∧ now.InUse ∧ Late now days := by
  obtain ⟨rest, htask, houtcome⟩ := hended
  have hturning := ((Office.abides_run (lifetime_keeps s stores) moves).tasks task errand rest
    htask).promised herrand
  rcases hturning.of_outcome houtcome with ⟨⟨event, hevent, days, hdays, hlate⟩, -⟩ |
    ⟨-, hpunctual⟩
  · obtain ⟨now, hread, htime⟩ := hlate.reading
    rw [(World.mem_past_iff.mp hevent).2] at hread
    rw [hread] at hevent
    have hnow : now.InUse := Office.time_of_reading hclock (World.mem_past_iff.mp hevent).1
    exact ⟨days, now, hdays, hevent, hnow, htime hnow⟩
  · exact (hpunctual hreliable e rfl hdate).elim

theorem complaint_of_signed {csrPem : String} {days : Nat} {issuer : CertificateIssuer}
    {now : Instant} {draw : Issuance.Draw} {csr : ValidatedCsr}
    (hvalid : Csr.validate csrPem = .ok csr) (hsignable : Csr.IsSignable csrPem)
    (hnow : now.InUse) (hlate : Late now days) :
    Authority.ofTask (Issuance.sign s.authority csrPem days issuer now draw) =
      .error (complaint now days) := by
  obtain ⟨candidate, hcandidate⟩ := (Csr.exists_candidate_iff hvalid).mpr hsignable
  rw [Issuance.sign_of_late hnow hcandidate hlate]
  exact Issuance.ofTask_lateness now days

theorem expires_le_of_find {key : String} {entry : Versioned IssuedCertificate}
    (hfind : (Office.run stores moves).world.find? .certificates key = some entry) :
    entry.value.expiresAt.seconds ≤ lastSecond := by
  cases provenance_of_find hfind with
  | renewed hsigned =>
      obtain ⟨now, draw, hsigned⟩ := hsigned
      exact Issuance.expires_le_of_sign hsigned
  | granted htask hcreation hcheck hsigned =>
      obtain ⟨now, draw, hsigned⟩ := hsigned
      exact Issuance.expires_le_of_sign hsigned

theorem lifetimes_of_isValid {c : Config} (hvalid : c.isValid) (hpolicy : s.issuance = c.issuance)
    (hclock : ∀ i chance, .advance i chance ∈ moves → chance.time.InUse) :
    Lifetimes s stores moves where
  bounded := fun errand days => bounded_of_isValid hvalid hpolicy
  allowed := by
    intro id approver given? comment hnamed hgiven
    exact allowed_of_isValid hvalid hpolicy hnamed hgiven id comment
  issuable := by
    obtain ⟨-, hpositive, hallowed⟩ := Config.days_of_isValid hvalid
    rw [← hpolicy] at hpositive hallowed
    exact issuable_iff (hpositive.trans_le hallowed)
  unapproved := by
    intro id r hawaits hsignable approver given? comment days draws hdays hnow hlate
    obtain ⟨hcheck, rfl⟩ := signedDays?_approve.mp hdays
    obtain ⟨csr, hvalidated⟩ := exists_validate_of_awaits hawaits
    exact approving_of_unsigned hawaits hcheck
      (complaint_of_signed hvalidated hsignable hnow hlate)
  approved := by
    intro id r hawaits hsignable approver given? comment days draws hdays hnow htimely hsigns hnew
    obtain ⟨hcheck, rfl⟩ := signedDays?_approve.mp hdays
    obtain ⟨csr, hvalidated⟩ := exists_validate_of_awaits hawaits
    exact approving_of_isSignable hawaits hvalidated hsignable hcheck
      ((Issuance.fits_iff hnow).mpr htimely) hsigns hnew
  unrenewed := by
    intro csrPem caller hgranted hsignable draws hnow hlate
    obtain ⟨csr, hvalidated, -⟩ := hgranted.named
    exact renewing_of_unsigned hgranted (complaint_of_signed hvalidated hsignable hnow hlate)
  renewed := by
    intro csrPem caller hgranted hsignable draws hnow htimely hsigns hnew
    exact renewing_of_isSignable hgranted hsignable ((Issuance.fits_iff hnow).mpr htimely) hsigns
      hnew
  blamed := by
    intro hreliable task errand e herrand hended hdate
    obtain ⟨days, now, hdays, hread, -, hlate⟩ :=
      late_of_isOfDate hclock hreliable herrand hended hdate
    exact ⟨days, now, hdays, hread, hlate⟩
  within := by
    intro hreliable hreach task errand e herrand hended hdate
    obtain ⟨days, now, hdays, -, hnow, hlate⟩ :=
      late_of_isOfDate hclock hreliable herrand hended hdate
    have hdays := (bounded_of_isValid hvalid hpolicy hdays).2.trans hreach
    exact (Issuance.not_late_iff days).mpr hdays now hnow hlate
  held := fun key entry => expires_le_of_find

/-- The days of a valid configuration, whatever they are: none of its rules bounds them, so that
they may lead beyond the dates of a certificate; where they do nothing is signed, and it is only
there that nothing is signed for a date. -/
theorem lifetimes {c : Config} (hvalid : c.isValid) {s : Service}
    (hpolicy : s.issuance = c.issuance) (stores : Stores) (moves : List (Move s.desk))
    (hclock : ∀ i chance, .advance i chance ∈ moves → chance.time.InUse) :
    (∀ usual renewal most, 0 < usual ∧ usual ≤ most → 0 < renewal ∧ renewal ≤ most →
      ({ c with issuance := { c.issuance with
        defaultValidityDays := usual, maxValidityDays := most, renewalValidityDays := renewal } } :
          Config).isValid) ∧
      Lifetimes s stores moves := by
  refine ⟨fun usual renewal most husual hrenewal => Config.isValid_days hvalid husual hrenewal, ?_⟩
  exact lifetimes_of_isValid hvalid hpolicy hclock

/-- The settings that hold where none are given, but for the most days that are allowed. -/
def generous : Config where
  issuance := { maxValidityDays := 3000000 }

/-- The service of an example, which allows more days than there are. -/
def generousService : Service := { usual with issuance := generous.issuance }

/-- Under a configuration that keeps every rule an approval may be for days that end too late
whenever they begin.  The request of an example, which awaits its decision, is not approved for
them. -/
theorem lifetimes_generous :
    generous.isValid ∧
      generousService.signedDays? (.approve Example.submissionDraws.requestId "admin"
        (some 3000000) "") = some 3000000 ∧
      Late ⟨0, 0⟩ 3000000 ∧
      (approving (Office.run .reliable (Example.application generousService))
        Example.submissionDraws.requestId "admin" (some 3000000) "" Example.approvalDraws).Ended 2
          (.approve Example.submissionDraws.requestId "admin" (some 3000000) "")
          (.error (.error (complaint Example.noon.time 3000000))) ∧
      (approving (Office.run .reliable (Example.application generousService))
        Example.submissionDraws.requestId "admin" (some 3000000) ""
          Example.approvalDraws).world.tables =
        (Office.run .reliable (Example.application generousService)).world.tables := by
  have hvalid : generous.isValid := by decide
  have hnoon : Example.noon.time.InUse := (Instant.inUse_iff _).mpr (by decide)
  have hlifetimes : Lifetimes generousService .reliable (Example.application generousService) :=
    (lifetimes hvalid rfl .reliable _ fun i chance hmove => by
      rw [Example.eq_noon_of_mem hmove]
      exact hnoon).2
  have hdays : generousService.signedDays? (.approve Example.submissionDraws.requestId "admin"
      (some 3000000) "") = some 3000000 := by
    refine hlifetimes.allowed _ _ _ _ (by decide) fun days hdays => ?_
    cases hdays
    decide
  obtain ⟨r, hawaits, hpem⟩ : ∃ r, Awaits
      (Office.run .reliable (Example.application generousService)).world
      Example.submissionDraws.requestId r ∧ r.csrPem = Example.csr.pem :=
    Example.awaits_application (by decide)
  have hsignable : Csr.IsSignable r.csrPem := by
    rw [hpem]
    exact Example.isSignable_csr
  have hcount : (Office.run .reliable (Example.application generousService)).tasks.length = 2 :=
    Example.length_tasks_application generousService
  obtain ⟨hended, htables⟩ := hlifetimes.unapproved _ r hawaits hsignable "admin" (some 3000000) ""
    3000000 Example.approvalDraws hdays hnoon (by decide)
  rw [hcount] at hended
  exact ⟨hvalid, hdays, by decide, hended, htables⟩

end Run

end Service

end CertAuthority
