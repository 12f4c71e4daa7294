import CertAuthority.Proofs.Service.Accountability
import CertAuthority.Proofs.Token.Expiry

/-!
# How far the hours of a policy may reach

Neither an order for a token nor the rules of a configuration bound the hours that a token is valid
and those of its grace.  So both may lead out of the calendar, and then nothing is issued, or
nothing is pruned any more.  Whether this happens depends on what the clock shows and on these hours
alone; and as long as the clock shows no year after 2200, it takes more than two thousand million of
them.
-/

namespace CertAuthority

/-- No rule of a configuration bounds the hours of tokens from above. -/
theorem Config.isValid_hours {c : Config} (hvalid : c.isValid) {validity : Nat}
    (hvalidity : 0 < validity) (grace : Nat) :
    ({ c with tokens := { c.tokens with
      defaultValidityHours := validity, pruneGraceHours := grace } } : Config).isValid := by
  have hnone : c.fault? = none := Option.isNone_iff_eq_none.mp hvalid
  have hpositive : validity ≠ 0 := Nat.ne_of_gt hvalidity
  rw [isValid, Option.isNone_iff_eq_none]
  have hhours : c.tokens.defaultValidityHours ≠ 0 := by
    intro hzero
    simp only [fault?, hzero, if_true] at hnone
    split_ifs at hnone
  rw [← hnone]
  simp only [fault?, hpositive, hhours, if_false]

/-- The hours that a token is valid for. -/
def TokenPolicy.validityHours (policy : TokenPolicy) (given? : Option Nat) : Nat :=
  given?.getD policy.defaultValidityHours

namespace Service

open Procedure (Justified Turning)
open Tokens (TooLate TooLong Stops Dated Leaving Showing Entering clock listing)

/-- What a service does: what it is asked for, and the sweeps that it makes by itself. -/
inductive Duty where
  | errand (asked : Errand)
  | sweep

def Duty.Result : Duty → Type
  | .errand asked => asked.Result
  | .sweep => Nat

/-- A service with its sweeper. -/
def house (s : Service) : Interface where
  Operation := Duty
  Result := Duty.Result
  procedure
    | .errand asked => s.perform asked
    | .sweep => Tokens.sweep (hours s.tokens.pruneGraceHours)

/-- That some hours from a time on lead out of the calendar. -/
def Overruns (t : Instant) (count : Nat) : Prop :=
  Instant.maxSeconds < t.seconds + hours count

theorem hours_nonneg (count : Nat) : 0 ≤ hours count :=
  Int.mul_nonneg (Int.natCast_nonneg count) (by decide)

theorem hours_add (count more : Nat) : hours (count + more) = hours count + hours more := by
  unfold hours
  rw [Nat.cast_add, Int.add_mul]

/-- Any longer time of grace leads out of the calendar from any time after 1969. -/
example : Instant.maxSeconds < hours 2280629688 ∧ ¬ Instant.maxSeconds < hours 2280629687 := by
  decide

/-- The hours from the end of the year 2200 to the end of the calendar. -/
def reach : Nat := 2278604784

theorem not_overruns {t : Instant} (ht : t.InUse) {count : Nat} (hcount : count ≤ reach) :
    ¬ Overruns t count := by
  have hlast := ((Instant.inUse_iff t).mp ht).2
  have hend : Instant.maxSeconds = 7289654399 + hours reach := by decide
  unfold Overruns
  simp only [hours, Instant.secondsPerHour] at hend ⊢
  omega

theorem addSeconds?_hours_eq_none_iff {t : Instant} (ht : 0 ≤ t.seconds) (count : Nat) :
    t.addSeconds? (hours count) = none ↔ Overruns t count :=
  Instant.addSeconds?_eq_none_iff ((by decide : Instant.minSeconds ≤ 0).trans ht)
    (hours_nonneg count)

section Duties

variable {s : Service} {stores : Stores} {holds : Instant → Prop}

theorem submit_heeds_expiry (csrPem token : String) (source : IpAddress) (agentInfo : Json) :
    (s.submit csrPem token source agentInfo).Heeds (Showing holds) (Leaving holds)
      fun _ => True := by
  unfold submit
  split
  · trivial
  · next csr tokenId hcheck =>
      refine (Tokens.redeem_heeds _ _).bind fun _ _ => ?_
      have hasks : (Ledger.submit ⟨csr.pem, csr.identity, source, tokenId, agentInfo⟩).Asks
          fun e => e.writesTo .tokens = false :=
        Ledger.submitFrom_asks (fun _ _ => rfl) Ledger.maxAttempts
      exact hasks.heeds fun e he => Tokens.leaving_of_among he Tokens.leaving_of_not_writesTo

/-- Of the errands only submissions change tokens. -/
theorem leaving_of_writes {errand : Errand} {e : Effect} (hwrites : s.Writes errand e)
    (herrand : ∀ csrPem token source agentInfo, errand ≠ .submit csrPem token source agentInfo) :
    Leaving holds e := by
  cases hwrites with
  | spent hcheck hredeemable => exact (herrand _ _ _ _ rfl).elim
  | _ => trivial

theorem perform_heeds_expiry (errand : Errand) :
    (s.perform errand).Heeds (Showing holds) (Leaving holds) fun _ => True := by
  have hother (herrand : ∀ csrPem token source agentInfo,
      errand ≠ .submit csrPem token source agentInfo) :
      (s.perform errand).Heeds (Showing holds) (Leaving holds) fun _ => True :=
    (perform_writes s errand).heeds fun e he => Tokens.leaving_of_among he fun hwrites =>
      leaving_of_writes hwrites herrand
  cases errand with
  | submit csrPem token source agentInfo => exact submit_heeds_expiry csrPem token source agentInfo
  | _ => exact hother (by intro _ _ _ _ hsubmit; cases hsubmit)

/-- Whatever a service does, no token is left another time of expiry. -/
theorem house_heeds (duty : Duty) :
    (s.house.procedure duty).Heeds (Showing holds) (Leaving holds) fun _ => True := by
  cases duty with
  | errand errand => exact perform_heeds_expiry errand
  | sweep =>
      have hasks : (Tokens.sweep (hours s.tokens.pruneGraceHours)).Asks (Leaving holds) :=
        Tokens.sweep_asks (fun _ _ => trivial) _
      exact hasks.heeds fun e he => Tokens.leaving_of_among he id

/-- What a duty says of the end of the calendar, and of the tokens that it has entered. -/
def horizonPromise (s : Service) (stores : Stores) : s.house.Promises
  | .errand (.issueToken _ given? _ _ _), task => fun past rest =>
    Turning stores (TooLate (hours (s.tokens.validityHours given?))) (· ≠ .error .calendar)
        (· = .error .calendar) past rest ∧
      Justified (Dated task (hours (s.tokens.validityHours given?))) past
  | .errand .pruneTokens, _ =>
    Turning stores (TooLong (hours s.tokens.pruneGraceHours)) (· ≠ .error .calendar)
      (Stops stores)
  | .sweep, _ =>
    Turning stores (TooLong (hours s.tokens.pruneGraceHours)) (· ≠ .error .calendar)
      (Stops stores)
  | _, _ => fun _ _ => True

theorem turns_pruneTokens (s : Service) : s.pruneTokens.Turns stores
    (TooLong (hours s.tokens.pruneGraceHours)) (· ≠ .error .calendar) (Stops stores) :=
  fun _ _ => ⟨False.elim, fun _ => Tokens.turns_prune _ _⟩

theorem horizon_keeps (s : Service) (stores : Stores) :
    s.house.Keeps (fun _ => True) stores (s.horizonPromise stores) where
  empty := trivial
  start := by
    intro duty task w _ _ hpast
    have huntold (told : (e : Effect) → e.Reply → Prop) :
        ∀ event ∈ w.past task, ¬ told event.effect event.reply := by
      rw [hpast]
      exact List.forall_mem_nil _
    have hjustified (warrant : List Event → Effect → Prop) :
        Justified warrant (w.past task) := by
      rw [hpast]
      exact List.forall_mem_nil _
    cases duty with
    | sweep => exact (Tokens.turns_sweep _).keeps (huntold _)
    | errand errand =>
        cases errand with
        | issueToken name given? sources comment createdBy =>
            have hdated : (s.issueToken name given? sources comment createdBy).Justifies task
                (Dated task (hours (s.tokens.validityHours given?))) (w.past task) :=
              Tokens.dated_issue
                ⟨name, hours (s.tokens.validityHours given?), sources, createdBy, comment⟩
                (hours_nonneg _) _
            exact ((Tokens.turns_issue (hours_nonneg _)).keeps (huntold _)).and
              (hdated.keeps (hjustified _))
        | pruneTokens => exact (turns_pruneTokens s).keeps (huntold _)
        | _ => exact Procedure.keeps_nothing _ _
  again := by
    intro duty task w _ _ hpromise
    cases duty with
    | sweep => exact (hpromise.ne_unfinished rfl).elim
    | errand errand =>
        cases errand with
        | issueToken name given? sources comment createdBy =>
            exact (hpromise.1.ne_unfinished rfl).elim
        | pruneTokens => exact (hpromise.ne_unfinished rfl).elim
        | _ => exact Procedure.keeps_nothing _ _

/-- The writes that a duty may ask for. -/
def DutyWrites (s : Service) : Duty → Effect → Prop
  | .errand errand => s.Writes errand
  | .sweep => fun e => ∃ key revision, e = .table .tokens (.delete key revision)

theorem house_asks (s : Service) (duty : Duty) :
    (s.house.procedure duty).Asks (s.DutyWrites duty) := by
  cases duty with
  | errand errand => exact perform_writes s errand
  | sweep => exact Tokens.sweep_asks (fun key revision => ⟨key, revision, rfl⟩) _

end Duties

section Run

variable {s : Service} {stores : Stores} {moves : List (Move s.house)}

/-- That a time is that of the expiry of a token that was issued: the hours of its order from a time
on that its task has read. -/
def Issued (policy : TokenPolicy) (o : Office s.house) (expiresAt : Instant) : Prop :=
  ∃ (task : Nat) (name : Option String) (given? : Option Nat) (sources : Option AddressSet)
    (comment createdBy : String) (rest : Procedure BootstrapToken) (now : Instant),
    o.tasks[task]? = some ⟨.errand (.issueToken name given? sources comment createdBy), rest⟩ ∧
      clock task now ∈ o.world.past task ∧
      expiresAt.seconds = now.seconds + hours (policy.validityHours given?)

/-- That a task, by order or as a sweep, has pruned the tokens, and how that has ended. -/
def Pruned (o : Office s.house) (task : Nat) (outcome : Except Failure Nat) : Prop :=
  o.Ended task (.errand .pruneTokens) outcome ∨ o.Ended task .sweep outcome

/-- That a task was shown an unused token whose time of grace leads out of the calendar. -/
def ShownOverrun (policy : TokenPolicy) (o : Office s.house) (task : Nat) : Prop :=
  ∃ listed entry, listing task listed ∈ o.world.past task ∧ entry ∈ listed ∧
    entry.2.value.usedAt = none ∧ Overruns entry.2.value.expiresAt policy.pruneGraceHours

/-- Where the hours of tokens lead out of the calendar, and where they do not. -/
structure Horizon (policy : TokenPolicy) (stores : Stores) (o : Office s.house) : Prop where
  /-- An order for a token fails at the end of the calendar exactly if the clock showed it a time
  that is too late for its hours. -/
  issue : ∀ task name given? sources comment createdBy outcome,
    o.Ended task (.errand (.issueToken name given? sources comment createdBy)) outcome →
      (outcome = .error .calendar ↔
        ∃ now, clock task now ∈ o.world.past task ∧ Overruns now (policy.validityHours given?))
  /-- It comes to an end once it has had nine moves, whatever others do. -/
  ended : ∀ (further : List (Move s.house)) (task : Nat) name given? sources comment createdBy
    (rest : Procedure BootstrapToken),
    o.tasks[task]? = some ⟨.errand (.issueToken name given? sources comment createdBy), rest⟩ →
      9 ≤ further.countP (Move.isBy task) → ∃ outcome, (o.after stores further).Ended task
        (.errand (.issueToken name given? sources comment createdBy)) outcome
  /-- A pruning fails there if it was shown an unused token whose time of grace is too
  long, and only then; a table that fails may keep it from coming so far. -/
  prune : ∀ task outcome, Pruned o task outcome →
    (outcome = .error .calendar → ShownOverrun policy o task) ∧
      (stores = .reliable → ShownOverrun policy o task → outcome = .error .calendar)
  /-- All tokens that are shown expire as they were issued, and so do those that stand. -/
  listed : ∀ task listed entry, listing task listed ∈ o.world.log → entry ∈ listed →
    Issued policy o entry.2.value.expiresAt
  held : ∀ key entry, o.world.find? .tokens key = some entry →
    Issued policy o (BootstrapToken.expiresAt entry.value)
  /-- With a time of grace that leads out of the calendar by itself, whoever prunes fails as soon as
  there is an unused token. -/
  stuck : stores = .reliable → Instant.maxSeconds < hours policy.pruneGraceHours →
    ∀ task listed entry outcome, Pruned o task outcome → listing task listed ∈ o.world.past task →
      entry ∈ listed → entry.2.value.usedAt = none → outcome = .error .calendar
  /-- As long as the hours of validity and grace make up no more than there are from the year 2200
  on, nothing fails at the end of the calendar. -/
  within : ∀ most,
    (∀ (task : Nat) name given? sources comment createdBy (rest : Procedure BootstrapToken),
      o.tasks[task]? = some ⟨.errand (.issueToken name given? sources comment createdBy), rest⟩ →
        policy.validityHours given? ≤ most) →
      most + policy.pruneGraceHours ≤ reach →
        (∀ task name given? sources comment createdBy,
          ¬ o.Ended task (.errand (.issueToken name given? sources comment createdBy))
            (.error .calendar)) ∧
          ∀ task, ¬ Pruned o task (.error .calendar)

/-- Whoever has entered a token had an order for it, and has read the time from which it is
valid. -/
theorem issued_of_creation {task : Nat} {key : String} {token : BootstrapToken}
    (hcreation : .creation task .tokens key token ∈ (Office.run stores moves).world.log) :
    Issued s.tokens (Office.run stores moves) token.expiresAt := by
  obtain ⟨duty, rest, htask, hamong⟩ := Office.allowed_of_mem (house_asks s) hcreation
  have hpromise :=
    ((Office.abides_run (horizon_keeps s stores) moves).tasks task duty rest htask).promised
  have hwrites : s.DutyWrites duty (.table .tokens (.create key token)) := hamong rfl
  cases duty with
  | sweep =>
      obtain ⟨removed, revision, hdelete⟩ := hwrites
      cases hdelete
  | errand errand =>
      change s.Writes errand _ at hwrites
      cases hwrites with
      | issued hunused =>
          obtain ⟨before, hbefore, hdated⟩ :=
            hpromise.2 _ (World.mem_past_iff.mpr ⟨hcreation, rfl⟩)
          obtain ⟨now, hnow, hexpires⟩ := hdated _ _ rfl
          exact ⟨task, _, _, _, _, _, rest, now, htask,
            hbefore.subset (List.mem_append_left _ hnow),
            Instant.seconds_of_addSeconds? (hours_nonneg _) hexpires⟩

/-- Every time of expiry that is shown or written is that of a token as it was issued. -/
theorem issued_upheld (s : Service) (stores : Stores) (moves : List (Move s.house)) :
    (Office.run stores moves).world.Reachable stores ∧
      ∀ event ∈ (Office.run stores moves).world.log,
        Leaving (Issued s.tokens (Office.run stores moves)) event.effect ∧
          Showing (Issued s.tokens (Office.run stores moves)) event.effect event.reply := by
  generalize hholds : Issued s.tokens (Office.run stores moves) = holds
  have hmaintains : s.house.Maintains stores (Entering holds)
      (fun w => w.Reachable stores ∧
        ∀ event ∈ w.log, Leaving holds event.effect ∧ Showing holds event.effect event.reply)
      fun _ _ _ rest => rest.Heeds (Showing holds) (Leaving holds) fun _ => True :=
    Interface.maintains_of_heeds
      (fun _ _ hentering task key token hcreation =>
        hentering task key token (List.mem_append_left _ hcreation))
      house_heeds fun w chance e => Tokens.showing_reply w chance e
  have hentering : Entering holds (Office.run stores moves).world.log := by
    rw [← hholds]
    exact fun _ _ _ => issued_of_creation
  exact ((Office.upholds_opening ⟨.empty, List.forall_mem_nil _⟩).after hmaintains hentering).lawful

theorem issued_of_listing {task : Nat} {listed : Entries BootstrapToken}
    {entry : String × Versioned BootstrapToken}
    (hlisting : listing task listed ∈ (Office.run stores moves).world.log)
    (hentry : entry ∈ listed) :
    Issued s.tokens (Office.run stores moves) entry.2.value.expiresAt :=
  ((issued_upheld s stores moves).2 _ hlisting).2 entry hentry

theorem issued_of_find {key : String} {entry : Versioned (TableName.Row .tokens)}
    (hfind : (Office.run stores moves).world.find? .tokens key = some entry) :
    Issued s.tokens (Office.run stores moves) (BootstrapToken.expiresAt entry.value) := by
  obtain ⟨hreachable, hlog⟩ := issued_upheld s stores moves
  exact Tokens.holds_of_written (fun _ _ _ => issued_of_creation)
    (fun event hevent => (hlog event hevent).1) (hreachable.written hfind)

/-- A pruning has promised to end as what it was shown makes it end. -/
theorem turning_of_pruned {task : Nat} {outcome : Except Failure Nat}
    (hpruned : Pruned (Office.run stores moves) task outcome) :
    ∃ rest : Procedure Nat, rest.outcome? = some outcome ∧
      Turning stores (TooLong (hours s.tokens.pruneGraceHours)) (· ≠ .error .calendar)
        (Stops stores) ((Office.run stores moves).world.past task) rest := by
  have habides := Office.abides_run (horizon_keeps s stores) moves
  rcases hpruned with ⟨rest, htask, houtcome⟩ | ⟨rest, htask, houtcome⟩
  · exact ⟨rest, houtcome, (habides.tasks task (.errand .pruneTokens) rest htask).promised⟩
  · exact ⟨rest, houtcome, (habides.tasks task .sweep rest htask).promised⟩

section InUse

variable (hclock : ∀ i chance, .advance i chance ∈ moves → chance.time.InUse) {task : Nat}

include hclock

theorem inUse_of_past {now : Instant}
    (hread : clock task now ∈ (Office.run stores moves).world.past task) : now.InUse :=
  Office.time_of_reading hclock (World.mem_past_iff.mp hread).1

theorem seconds_of_past {now : Instant}
    (hread : clock task now ∈ (Office.run stores moves).world.past task) : 0 ≤ now.seconds :=
  ((Instant.inUse_iff now).mp (inUse_of_past hclock hread)).1

/-- No token expires before 1970. -/
theorem seconds_of_issued {policy : TokenPolicy} {expiresAt : Instant}
    (hissued : Issued policy (Office.run stores moves) expiresAt) : 0 ≤ expiresAt.seconds := by
  obtain ⟨task, -, given?, -, -, -, -, now, -, hread, hexpires⟩ := hissued
  have hnow := seconds_of_past hclock hread
  have hhours := hours_nonneg (policy.validityHours given?)
  omega

/-- How an order for a token has ended. -/
theorem issue_iff {name : Option String} {given? : Option Nat} {sources : Option AddressSet}
    {comment createdBy : String} {outcome : Except Failure BootstrapToken}
    (hended : (Office.run stores moves).Ended task
      (.errand (.issueToken name given? sources comment createdBy)) outcome) :
    outcome = .error .calendar ↔ ∃ now, clock task now ∈ (Office.run stores moves).world.past task ∧
      Overruns now (s.tokens.validityHours given?) := by
  obtain ⟨rest, htask, houtcome⟩ := hended
  have hpromise :=
    ((Office.abides_run (horizon_keeps s stores) moves).tasks task _ rest htask).promised
  rcases hpromise.1.of_outcome houtcome with ⟨⟨event, hevent, hlate⟩, hcalendar⟩ | ⟨huntold, hother⟩
  · obtain ⟨now, hread, hbeyond⟩ := hlate.reading
    rw [(World.mem_past_iff.mp hevent).2] at hread
    rw [hread] at hevent
    exact iff_of_true hcalendar ⟨now, hevent,
      (addSeconds?_hours_eq_none_iff (seconds_of_past hclock hevent) _).mp hbeyond⟩
  · refine iff_of_false hother fun ⟨now, hread, hoverruns⟩ => huntold _ hread ?_
    exact (addSeconds?_hours_eq_none_iff (seconds_of_past hclock hread) _).mpr hoverruns

/-- How a pruning has ended. -/
theorem prune_iff {outcome : Except Failure Nat}
    (hpruned : Pruned (Office.run stores moves) task outcome) :
    (outcome = .error .calendar → ShownOverrun s.tokens (Office.run stores moves) task) ∧
      (stores = .reliable → ShownOverrun s.tokens (Office.run stores moves) task →
        outcome = .error .calendar) := by
  have hgrace {listed : Entries BootstrapToken} {entry : String × Versioned BootstrapToken}
      (hlisting : listing task listed ∈ (Office.run stores moves).world.past task)
      (hentry : entry ∈ listed) :
      entry.2.value.expiresAt.addSeconds? (hours s.tokens.pruneGraceHours) = none ↔
        Overruns entry.2.value.expiresAt s.tokens.pruneGraceHours :=
    addSeconds?_hours_eq_none_iff (seconds_of_issued hclock
      (issued_of_listing (World.mem_past_iff.mp hlisting).1 hentry)) _
  obtain ⟨rest, houtcome, hturning⟩ := turning_of_pruned hpruned
  rcases hturning.of_outcome houtcome with ⟨⟨event, hevent, hlong⟩, hoverrun⟩ | ⟨huntold, hother⟩
  · obtain ⟨listed, entry, hlisting, hentry, hunused, hbeyond⟩ := hlong.listing
    rw [(World.mem_past_iff.mp hevent).2] at hlisting
    rw [hlisting] at hevent
    exact ⟨fun _ => ⟨listed, entry, hevent, hentry, hunused, (hgrace hevent hentry).mp hbeyond⟩,
      fun hreliable _ => hoverrun hreliable⟩
  · refine ⟨fun hcalendar => (hother hcalendar).elim, fun _ hshown => ?_⟩
    obtain ⟨listed, entry, hlisting, hentry, hunused, hoverruns⟩ := hshown
    exact (huntold _ hlisting
      ⟨entry, hentry, hunused, (hgrace hlisting hentry).mpr hoverruns⟩).elim

/-- Whatever a pruning was shown, hours that are few enough do not lead out of the calendar. -/
theorem not_shownOverrun {most : Nat}
    (hmost : ∀ (task : Nat) name given? sources comment createdBy (rest : Procedure BootstrapToken),
      (Office.run stores moves).tasks[task]? =
        some ⟨.errand (.issueToken name given? sources comment createdBy), rest⟩ →
          s.tokens.validityHours given? ≤ most)
    (hreach : most + s.tokens.pruneGraceHours ≤ reach) :
    ¬ ShownOverrun s.tokens (Office.run stores moves) task := by
  rintro ⟨listed, entry, hlisting, hentry, -, hoverruns⟩
  obtain ⟨issuer, name, given?, sources, comment, createdBy, rest, now, htask, hread, hexpires⟩ :=
    issued_of_listing (World.mem_past_iff.mp hlisting).1 hentry
  have hle := hmost issuer _ _ _ _ _ rest htask
  have hboth : Overruns now (s.tokens.validityHours given? + s.tokens.pruneGraceHours) := by
    unfold Overruns at hoverruns ⊢
    rw [hours_add]
    omega
  exact not_overruns (inUse_of_past hclock hread) (by omega) hboth

theorem horizon_of_inUse : Horizon s.tokens stores (Office.run stores moves) where
  issue _ _ _ _ _ _ _ hended := issue_iff hclock hended
  ended := by
    intro further task name given? sources comment createdBy rest htask hcount
    rw [← Office.run_append]
    exact Office.ended_run (Tokens.endsWithin_issue _) htask further hcount
  prune _ _ hpruned := prune_iff hclock hpruned
  listed _ _ _ := issued_of_listing
  held _ _ := issued_of_find
  stuck := by
    intro hreliable hlong task listed entry outcome hpruned hlisting hentry hunused
    have hexpires := seconds_of_issued hclock
      (issued_of_listing (World.mem_past_iff.mp hlisting).1 hentry)
    have hoverruns : Overruns entry.2.value.expiresAt s.tokens.pruneGraceHours := by
      unfold Overruns
      omega
    exact (prune_iff hclock hpruned).2 hreliable
      ⟨listed, entry, hlisting, hentry, hunused, hoverruns⟩
  within := by
    intro most hmost hreach
    constructor
    · intro task name given? sources comment createdBy hended
      obtain ⟨now, hread, hoverruns⟩ := (issue_iff hclock hended).mp rfl
      obtain ⟨rest, htask, -⟩ := hended
      have hle := hmost task _ _ _ _ _ rest htask
      exact not_overruns (inUse_of_past hclock hread) (by omega) hoverruns
    · intro task hpruned
      exact not_shownOverrun hclock hmost hreach ((prune_iff hclock hpruned).1 rfl)

end InUse

/-- The hours of a valid configuration, whatever they are: none of its rules bounds them, so that
they may lead out of the calendar; they do where they add up to more than there is left, and only
there. -/
theorem horizon {c : Config} (hvalid : c.isValid) {s : Service} (htokens : s.tokens = c.tokens)
    (stores : Stores) (moves : List (Move s.house))
    (hclock : ∀ i chance, .advance i chance ∈ moves → chance.time.InUse) :
    (∀ validity grace, 0 < validity →
      ({ c with tokens := { c.tokens with
        defaultValidityHours := validity, pruneGraceHours := grace } } : Config).isValid) ∧
      Horizon c.tokens stores (Office.run stores moves) := by
  refine ⟨fun validity grace hvalidity => Config.isValid_hours hvalid hvalidity grace, ?_⟩
  rw [← htokens]
  exact horizon_of_inUse hclock

/-- The settings that hold where none are given, but for a time of grace as long as may be. -/
def lavish : Config where
  tokens := { pruneGraceHours := 4294967295 }

/-- The service of an example, which keeps its tokens as long as may be. -/
def lavishService : Service := { usual with tokens := lavish.tokens }

/-- A token is issued, and a sweep follows at once. -/
def stranded : List (Move lavishService.house) :=
  [.start (.errand (.issueToken none none none "" "admin")), .advance 0 Tokens.noon,
    .advance 0 Tokens.noon, .advance 0 Tokens.noon, .start .sweep, .advance 1 Tokens.noon,
    .advance 1 Tokens.noon]

/-- Under a configuration that keeps every rule the sweeper fails at the first token. -/
theorem horizon_lavish :
    lavish.isValid ∧ (Office.run .reliable stranded).Ended 1 .sweep (.error .calendar) := by
  have hvalid : lavish.isValid := by decide
  have hclock : ∀ i chance, .advance i chance ∈ stranded → chance.time.InUse := by
    intro i chance hmove
    have hnoon : chance = Tokens.noon := by
      simp only [stranded, List.mem_cons, Move.advance.injEq, reduceCtorEq, false_or,
        List.not_mem_nil, or_false] at hmove
      tauto
    rw [hnoon]
    exact (Instant.inUse_iff _).mpr (by decide)
  obtain ⟨outcome, hended⟩ : ∃ outcome : Except Failure Nat,
      (Office.run .reliable stranded).Ended 1 .sweep outcome := ⟨_, _, rfl, rfl⟩
  have hpast : (Office.run .reliable stranded).world.past 1 = [clock 1 Tokens.noon.time,
      listing 1 ((Office.run .reliable stranded).world.tables .tokens).entries] := rfl
  have hlisting : listing 1 ((Office.run .reliable stranded).world.tables .tokens).entries ∈
      (Office.run .reliable stranded).world.past 1 := by
    rw [hpast]
    exact List.mem_cons_of_mem _ List.mem_cons_self
  obtain ⟨-, hhorizon⟩ := horizon hvalid (s := lavishService) rfl .reliable stranded hclock
  obtain rfl := hhorizon.stuck rfl (by decide) 1 _ _ outcome (.inr hended) hlisting
    List.mem_cons_self rfl
  exact ⟨hvalid, hended⟩

end Run

end Service

end CertAuthority
