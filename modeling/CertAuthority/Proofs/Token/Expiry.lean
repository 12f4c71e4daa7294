import CertAuthority.Proofs.Office.Told
import CertAuthority.Proofs.Token.Pruning

/-!
# Tokens and the end of the calendar

A token expires some time after the clock showed its issue, and its time of grace ends some time
after that.  Nothing keeps either sum within the calendar.  Issuing fails there exactly if the clock
shows a time that is too late for it, and pruning exactly if it is shown an unused token whose time
of grace is too long.  What is certain is where the time of expiry comes from: it is that of the
token as it was issued.
-/

namespace CertAuthority.Tokens

section Ending

variable {stores : Stores}

/-- Being told a time from which a validity leads out of the calendar. -/
def TooLate (validity : Int) : (e : Effect) → e.Reply → Prop
  | .now, now => now.addSeconds? validity = none
  | _, _ => False

/-- Being shown an unused token from whose expiry a time of grace leads out of the calendar. -/
def TooLong (grace : Int) : (e : Effect) → e.Reply → Prop
  | .table .tokens .list, .ok (entries : Entries BootstrapToken) =>
    ∃ entry ∈ entries, entry.2.value.usedAt = none ∧
      entry.2.value.expiresAt.addSeconds? grace = none
  | _, _ => False

theorem TooLate.reading {validity : Int} {event : Event}
    (hlate : TooLate validity event.effect event.reply) :
    ∃ now, event = clock event.task now ∧ now.addSeconds? validity = none := by
  obtain ⟨task, e, reply⟩ := event
  cases e with
  | now => exact ⟨reply, rfl, hlate⟩
  | _ => exact hlate.elim

theorem TooLong.listing {grace : Int} {event : Event}
    (hlong : TooLong grace event.effect event.reply) :
    ∃ listed entry, event = listing event.task listed ∧ entry ∈ listed ∧
      entry.2.value.usedAt = none ∧ entry.2.value.expiresAt.addSeconds? grace = none := by
  obtain ⟨task, e, reply⟩ := event
  unfold TooLong at hlong
  split at hlong
  · next listed heffect hreply =>
      cases heffect
      cases hreply
      obtain ⟨entry, hentry, hunused, hbeyond⟩ := hlong
      exact ⟨listed, entry, rfl, hentry, hunused, hbeyond⟩
  · exact hlong.elim

theorem make_of_beyond {order : Order} {now : Instant} (hvalidity : 0 ≤ order.validity)
    (hbeyond : now.addSeconds? order.validity = none) :
    make order now = .call (.random 32) fun _ => .fail .calendar := by
  unfold make
  simp only [if_neg (Int.not_lt.mpr hvalidity), hbeyond]

theorem make_of_within {order : Order} {now expiresAt : Instant} (hvalidity : 0 ≤ order.validity)
    (hexpires : now.addSeconds? order.validity = some expiresAt) :
    make order now = .call (.random 32) fun random =>
      .done (BootstrapToken.create (identifierOf random) order.commonName order.sources
        order.createdBy order.comment now expiresAt) := by
  unfold make
  simp only [if_neg (Int.not_lt.mpr hvalidity), hexpires]

theorem turns_entered {told : (e : Effect) → e.Reply → Prop} {retry : Procedure BootstrapToken}
    (hretry : retry.Turns stores told (· ≠ .error .calendar) (· = .error .calendar))
    (token : BootstrapToken) (reply : Except CaError Nat) :
    (entered token retry reply).Turns stores told (· ≠ .error .calendar)
      (· = .error .calendar) := by
  unfold entered
  split
  · exact nofun
  · exact hretry
  · exact ⟨nofun, nofun⟩

/-- Issuing leaves the calendar exactly if it is told a time that is too late. -/
theorem turns_issueFrom {order : Order} (hvalidity : 0 ≤ order.validity) (attempts : Nat) :
    (issueFrom order attempts).Turns stores (TooLate order.validity) (· ≠ .error .calendar)
      (· = .error .calendar) := by
  induction attempts with
  | zero => exact ⟨nofun, nofun⟩
  | succ attempts ih =>
      intro w chance
      generalize w.reply stores chance .now = now
      cases hexpires : now.addSeconds? order.validity with
      | none =>
          refine ⟨fun _ => ?_, fun hwithin => (hwithin hexpires).elim⟩
          change ((make order now).bind _).EndsAs stores _
          rw [make_of_beyond hvalidity hexpires]
          exact fun _ _ => ⟨nofun, rfl⟩
      | some expiresAt =>
          refine ⟨fun hlate => (nomatch hexpires.symm.trans hlate), fun _ => ?_⟩
          change ((make order now).bind _).Turns stores _ _ _
          rw [make_of_within hvalidity hexpires]
          exact fun _ _ => ⟨False.elim, fun _ _ _ => ⟨False.elim, fun _ => turns_entered ih _ _⟩⟩

theorem turns_issue {order : Order} (hvalidity : 0 ≤ order.validity) :
    (issue order).Turns stores (TooLate order.validity) (· ≠ .error .calendar)
      (· = .error .calendar) := by
  unfold issue
  split
  · exact ⟨nofun, nofun⟩
  · exact turns_issueFrom hvalidity maxAttempts

/-- Each attempt takes a reading of the clock, a drawing and a call to the table. -/
theorem endsWithin_issueFrom (order : Order) (attempts : Nat) :
    (issueFrom order attempts).EndsWithin (3 * attempts) := by
  induction attempts with
  | zero => exact nofun
  | succ attempts ih =>
      intro now
      change ((make order now).bind _).EndsWithin (3 * attempts + 1 + 1)
      unfold make
      split
      · exact nofun
      · intro random
        split
        · exact nofun
        · intro reply
          change (entered _ _ reply).EndsWithin (3 * attempts)
          unfold entered
          split
          · trivial
          · exact ih
          · exact nofun

theorem endsWithin_issue (order : Order) : (issue order).EndsWithin 9 := by
  unfold issue
  split
  · exact nofun
  · exact endsWithin_issueFrom order maxAttempts

/-- To fail at the end of the calendar, unless a table fails before. -/
def Stops (stores : Stores) (outcome : Except Failure Nat) : Prop :=
  stores = .reliable → outcome = .error .calendar

variable {now : Instant} {grace : Int}

/-- Going through a listing leads out of the calendar if one of its tokens does. -/
theorem endsAs_pruneEntries {entries : Entries BootstrapToken}
    {entry : String × Versioned BootstrapToken} (hentry : entry ∈ entries)
    (hbeyond : isStale? entry.2.value now grace = none) (count : Nat) :
    (pruneEntries now grace entries count).EndsAs stores (Stops stores) := by
  induction entries generalizing count with
  | nil => cases hentry
  | cons head tail ih =>
      have htail (hstale : isStale? head.2.value now grace ≠ none) : entry ∈ tail := by
        rcases List.mem_cons.mp hentry with rfl | htail
        · exact (hstale hbeyond).elim
        · exact htail
      unfold pruneEntries
      split
      · exact ⟨nofun, fun _ => rfl⟩
      · next hstale => exact ih (htail (by simp [hstale])) count
      · next hstale =>
          have hlater := ih (htail (by simp [hstale]))
          intro w chance
          cases hreply : w.reply stores chance (.table .tokens (.delete _ _)) with
          | ok done => exact hlater _
          | error error =>
              unfold removed
              split
              · exact hlater _
              · exact hlater _
              · next found hother hfound =>
                  refine ⟨nofun, ?_⟩
                  rintro rfl
                  cases hfound
                  exact (hother _ (World.eq_conflict_of_error hreply)).elim

theorem turns_pruneEntries {entries : Entries BootstrapToken}
    (hwithin : ∀ entry ∈ entries, isStale? entry.2.value now grace ≠ none) (count : Nat) :
    (pruneEntries now grace entries count).Turns stores (TooLong grace) (· ≠ .error .calendar)
      (Stops stores) := by
  induction entries generalizing count with
  | nil => exact nofun
  | cons head tail ih =>
      have htail := ih fun entry hentry => hwithin entry (List.mem_cons_of_mem _ hentry)
      unfold pruneEntries
      split
      · next hstale => exact (hwithin _ List.mem_cons_self hstale).elim
      · exact htail count
      · refine fun w chance => ⟨False.elim, fun _ => ?_⟩
        unfold removed
        split
        · exact htail _
        · exact htail _
        · exact ⟨nofun, nofun⟩

/-- Pruning leaves the calendar exactly if it is shown a token whose time of grace is too long. -/
theorem turns_prune (now : Instant) (grace : Int) :
    (prune now grace).Turns stores (TooLong grace) (· ≠ .error .calendar) (Stops stores) := by
  intro w chance
  rcases w.reply_list stores chance .tokens with ⟨error, -, hreply⟩ | hreply
  · rw [hreply]
    exact ⟨nofun, fun _ => ⟨nofun, nofun⟩⟩
  · rw [hreply]
    constructor
    · rintro ⟨entry, hentry, hbeyond⟩
      exact endsAs_pruneEntries hentry (isStale?_eq_none_iff.mpr hbeyond) 0
    · intro hwithin
      exact turns_pruneEntries (fun entry hentry hnone =>
        hwithin ⟨entry, hentry, isStale?_eq_none_iff.mp hnone⟩) 0

theorem endsAs_ignoringErrors {p : Procedure Nat} (hp : p.EndsAs stores (Stops stores)) :
    (ignoringErrors p).EndsAs stores (Stops stores) := by
  induction p with
  | done n => exact hp
  | fail f =>
      cases f with
      | error e => exact fun hreliable => nomatch hp.2 hreliable
      | calendar => exact hp
      | unfinished => exact hp
  | call e next ih => exact fun w chance => ih _ (hp w chance)

/-- The end of the calendar is no error that a sweep ignores. -/
theorem turns_ignoringErrors {p : Procedure Nat} {told : (e : Effect) → e.Reply → Prop}
    (hp : p.Turns stores told (· ≠ .error .calendar) (Stops stores)) :
    (ignoringErrors p).Turns stores told (· ≠ .error .calendar) (Stops stores) := by
  induction p with
  | done n => exact hp
  | fail f =>
      cases f with
      | error e => exact nofun
      | calendar => exact hp
      | unfinished => exact hp
  | call e next ih =>
      intro w chance
      obtain ⟨hturned, hstill⟩ := hp w chance
      exact ⟨fun htold => endsAs_ignoringErrors (hturned htold),
        fun huntold => ih _ (hstill huntold)⟩

theorem turns_sweep (grace : Int) :
    (sweep grace).Turns stores (TooLong grace) (· ≠ .error .calendar) (Stops stores) :=
  fun _ _ => ⟨False.elim, fun _ => turns_ignoringErrors (turns_prune _ grace)⟩

theorem only_ignoringErrors {allowed : Effect → Prop} {p : Procedure Nat} (hp : p.Only allowed) :
    (ignoringErrors p).Only allowed := by
  induction p with
  | done n => trivial
  | fail f => cases f <;> trivial
  | call e next ih => exact ⟨hp.1, fun reply => ih reply (hp.2 reply)⟩

/-- A sweep writes nothing but removals. -/
theorem sweep_asks {writes : Effect → Prop}
    (hprune : ∀ key revision, writes (.table .tokens (.delete key revision))) (grace : Int) :
    (sweep grace).Asks writes :=
  (Procedure.asks_now writes).bind fun now => only_ignoringErrors <|
    (Procedure.asks_reading rfl writes).bind fun entries =>
      pruneEntries_asks hprune now grace entries 0

end Ending

section Origin

variable {stores : Stores} {task : Nat} {w : World}

/-- A warrant for entering tokens: they expire a validity after a time that was read. -/
def Dated (task : Nat) (validity : Int) (past : List Event) (e : Effect) : Prop :=
  ∀ (key : String) (token : BootstrapToken), e = .table .tokens (.create key token) →
    ∃ now, clock task now ∈ past ∧ now.addSeconds? validity = some token.expiresAt

theorem dated_aside {e : Effect} (he : e.writesTo .tokens = false) (validity : Int)
    (past : List Event) : Dated task validity past e := by
  intro key token hcreate
  rw [hcreate] at he
  cases he

theorem dated_create {validity : Int} {past : List Event} {now : Instant}
    (hnow : clock task now ∈ past) {token : BootstrapToken}
    (hexpires : now.addSeconds? validity = some token.expiresAt) (key : String) :
    Dated task validity past (.table .tokens (.create key token)) := by
  intro other found hcreate
  cases hcreate
  exact ⟨now, hnow, hexpires⟩

theorem dated_entered {validity : Int} {retry : Procedure BootstrapToken} {past : List Event}
    (hretry : retry.Justifies task (Dated task validity) past) (token : BootstrapToken)
    (reply : Except CaError Nat) :
    (entered token retry reply).Justifies task (Dated task validity) past := by
  unfold entered
  split
  · trivial
  · exact hretry
  · trivial

/-- Each token is entered after the time was read from which it is valid. -/
theorem dated_issueFrom {order : Order} (hvalidity : 0 ≤ order.validity) (attempts : Nat)
    (past : List Event) :
    (issueFrom order attempts).Justifies task (Dated task order.validity) past := by
  induction attempts generalizing past with
  | zero => trivial
  | succ attempts ih =>
      refine ⟨dated_aside rfl _ _, fun now => ?_⟩
      change ((make order now).bind _).Justifies _ _ _
      cases hexpires : Instant.addSeconds? now order.validity with
      | none =>
          rw [make_of_beyond hvalidity hexpires]
          exact ⟨dated_aside rfl _ _, fun _ => trivial⟩
      | some expiresAt =>
          rw [make_of_within hvalidity hexpires]
          have hread (random : Event) :
              clock task now ∈ past ++ [⟨task, .now, now⟩] ++ [random] :=
            List.mem_append_left _ (List.mem_append_right _ List.mem_cons_self)
          exact ⟨dated_aside rfl _ _, fun random => ⟨dated_create (hread _) hexpires _,
            fun reply => dated_entered (ih _) _ _⟩⟩

theorem dated_issue (order : Order) (hvalidity : 0 ≤ order.validity) (past : List Event) :
    (issue order).Justifies task (Dated task order.validity) past := by
  unfold issue
  split
  · trivial
  · exact dated_issueFrom hvalidity maxAttempts past

/-- What is asked of the tokens: whoever changes one leaves it a time of expiry of a kind. -/
def Leaving (holds : Instant → Prop) : Effect → Prop
  | .table .tokens (.update _ token _) => holds (BootstrapToken.expiresAt token)
  | _ => True

/-- What is shown of the tokens: all of them have a time of expiry of a kind. -/
def Showing (holds : Instant → Prop) : (e : Effect) → e.Reply → Prop
  | .table .tokens (.get _), .ok (some entry) => holds (BootstrapToken.expiresAt entry.value)
  | .table .tokens .list, .ok (entries : Entries BootstrapToken) =>
    ∀ entry ∈ entries, holds entry.2.value.expiresAt
  | _, _ => True

/-- That tokens were entered only with times of expiry of a kind. -/
def Entering (holds : Instant → Prop) (log : List Event) : Prop :=
  ∀ (task : Nat) (key : String) (token : BootstrapToken),
    .creation task .tokens key token ∈ log → holds token.expiresAt

variable {holds : Instant → Prop}

theorem leaving_of_not_writesTo {e : Effect} (he : e.writesTo .tokens = false) :
    Leaving holds e := by
  unfold Leaving
  split
  · cases he
  · trivial

theorem leaving_of_among {writes : Effect → Prop} {e : Effect} (he : e.Among writes)
    (hwrites : writes e → Leaving holds e) : Leaving holds e :=
  he.elim (fun hquiet => leaving_of_not_writesTo (Effect.not_writesTo_of_not_asksWrite hquiet _))
    hwrites

/-- A token that is redeemed keeps its time of expiry. -/
theorem redeem_heeds (redemption : Redemption) (rounds : Nat) :
    (redeem redemption rounds).Heeds (Showing holds) (Leaving holds) fun _ => True := by
  induction rounds with
  | zero => trivial
  | succ rounds ih =>
      refine ⟨trivial, fun now _ => ⟨trivial, fun reply hshown => ?_⟩⟩
      unfold examine
      split
      · trivial
      · trivial
      · next read =>
          unfold spend
          split
          · trivial
          · refine ⟨hshown, fun reply _ => ?_⟩
            unfold written
            split
            · trivial
            · exact ih
            · trivial

/-- What was written has a time of expiry of the kind. -/
theorem holds_of_written (hentering : Entering holds w.log)
    (hlog : ∀ event ∈ w.log, Leaving holds event.effect) {key : String}
    {entry : Versioned (TableName.Row .tokens)} (hwritten : w.Written .tokens key entry) :
    holds (BootstrapToken.expiresAt entry.value) := by
  cases hwritten with
  | created hcreation => exact hentering _ _ _ hcreation
  | changed hchange => exact hlog _ hchange

theorem showing_reply (w : World) (chance : Chance) (e : Effect) (hreachable : w.Reachable stores)
    (hentering : Entering holds w.log) (hlog : ∀ event ∈ w.log, Leaving holds event.effect) :
    Showing holds e (w.reply stores chance e) := by
  have hfound (key : String) (entry : Versioned (TableName.Row .tokens))
      (hfind : w.find? .tokens key = some entry) : holds (BootstrapToken.expiresAt entry.value) :=
    holds_of_written hentering hlog (hreachable.written hfind)
  unfold Showing
  split
  · next key entry hreply =>
      rcases w.reply_get stores chance .tokens key with ⟨error, -, herror⟩ | hok
      · cases herror.symm.trans hreply
      · exact hfound _ _ (Except.ok.inj (hok.symm.trans hreply))
  · next entries hreply =>
      rcases w.reply_list stores chance .tokens with ⟨error, -, herror⟩ | hok
      · cases herror.symm.trans hreply
      · obtain rfl := Except.ok.inj (hok.symm.trans hreply)
        intro entry hentry
        exact hfound _ _ (Entries.find?_eq_some_of_mem (hreachable.orderly .tokens) hentry)
  · trivial

end Origin

end CertAuthority.Tokens
