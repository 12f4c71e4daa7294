import CertAuthority.Proofs.Certificate.Conduct
import CertAuthority.Proofs.Office.Trace
import CertAuthority.Proofs.Time.Instant

/-!
# Revocation is permanent

Certificates are entered, revoked, asked about and listed at the same time, by any number of
callers.  Of all who revoke a certificate the first is recorded, and the others are shown that
record; from then on the certificate is revoked at all times.
-/

namespace CertAuthority

namespace CertificateStatus

/-- The order in which a certificate goes through its statuses. -/
def rank : CertificateStatus → Nat
  | .active => 0
  | .expired => 1
  | .revoked => 2

/-- As time goes on, and once it is revoked, a certificate's status moves up. -/
theorem rank_classify_le {before after : Bool} (hrevoked : before → after) {now later : Instant}
    (hlater : now ≤ later) (expiresAt : Instant) :
    (classify before expiresAt now).rank ≤ (classify after expiresAt later).rank := by
  cases before with
  | true =>
      obtain rfl : after = true := hrevoked rfl
      exact Nat.le_refl _
  | false =>
      by_cases hexpired : expiresAt < now
      · have hstill := Instant.lt_of_lt_of_le hexpired hlater
        cases after <;> simp [classify, hexpired, hstill, rank]
      · simp [classify, hexpired, rank]

end CertificateStatus

namespace Registry

/-- What is asked of the register. -/
inductive Errand where
  | record (certificate : IssuedCertificate)
  | revoke (serial : SerialNumber) (revokedBy : String)
  | statusAt (serial : SerialNumber) (now : Instant)
  | list (filter : Option CertificateStatus)

/-- The desk of the register. -/
def desk : Interface where
  Operation := Errand
  Result
    | .record _ => Unit
    | .revoke _ _ => Revocation
    | .statusAt _ _ => CertificateStatus
    | .list _ => List CertificateSummary
  procedure
    | .record certificate => record certificate
    | .revoke serial revokedBy => revoke serial revokedBy
    | .statusAt serial now => statusAt serial now
    | .list filter => list filter

/-- The status of a certificate at a time, as the tables tell it. -/
def statusOf? (w : World) (serial : SerialNumber) (now : Instant) : Option CertificateStatus :=
  (w.find? .certificates serial.text).map fun entry =>
    .classify (w.find? .revocations serial.text).isSome entry.value.expiresAt now

/-- What each errand promises. -/
def promise (stores : Stores) : desk.Promises
  | .revoke serial revokedBy, task =>
    .ofAccount (Inquiring stores task serial (Shown task serial revokedBy))
  | .statusAt serial now, task =>
    .ofAccount (Inquiring stores task serial (Classified task serial now))
  | _, _ => fun past _ => ∀ event ∈ past, Keeping event.effect

theorem desk_keeps (stores : Stores) : desk.Keeps Law stores (promise stores) where
  empty := Law.empty
  start := by
    intro errand task w _ _ hpast
    have hcalls : w.calls task = [] := by rw [World.calls, hpast]; rfl
    have hnone : ∀ event ∈ w.past task, Keeping event.effect := by
      rw [hpast]
      exact List.forall_mem_nil _
    cases errand with
    | record certificate => exact keeps_of_asks (record_asks (keeping_record certificate)) hnone
    | revoke serial revokedBy => exact keeps_revoke revokedBy hcalls
    | statusAt serial now => exact keeps_statusAt now hcalls
    | list filter => exact keeps_of_asks (list_asks filter) hnone
  again := by
    intro errand task w _ _ hpromise
    cases errand with
    | record certificate => exact keeps_of_asks (record_asks (keeping_record certificate)) hpromise
    | revoke serial revokedBy => exact absurd hpromise Inquiring.finished
    | statusAt serial now => exact absurd hpromise Inquiring.finished
    | list filter => exact keeps_of_asks (list_asks filter) hpromise

/-- What a revocation has shown stands. -/
theorem find_of_shown {w : World} {stores : Stores} (hlaw : Law w)
    (hreachable : w.Reachable stores) {task : Nat} {serial : SerialNumber} {revokedBy : String}
    {revocation : Revocation} (hshown : Shown task serial revokedBy (w.calls task) revocation) :
    w.find? .revocations serial.text = some (.fresh revocation) := by
  cases hshown with
  | entered hcreation =>
      exact hlaw.revocations.find_of_creation (World.mem_log_of_mem_calls hcreation)
  | earlier hread =>
      have hwritten := hreachable.written_of_read (World.mem_log_of_mem_calls hread)
      have hfind := hlaw.revocations.find_of_written hwritten
      obtain ⟨-, hfresh, -⟩ := hlaw.revocations.creation_of_find hfind
      rw [hfind, ← hfresh]

section Run

variable {stores : Stores} {moves more : List (Move desk)} {i j : Nat} {serial : SerialNumber}

theorem abides (stores : Stores) (moves : List (Move desk)) :
    (Office.run stores moves).Abides Law stores (promise stores) :=
  Office.abides_run (desk_keeps stores) moves

theorem log_prefix_run (stores : Stores) (moves more : List (Move desk)) :
    (Office.run stores moves).world.log <+: (Office.run stores (moves ++ more)).world.log := by
  rw [Office.run_append]
  exact Office.log_prefix_after stores _ more

theorem certificate_stays {entry : Versioned IssuedCertificate} {key : String}
    (hfind : (Office.run stores moves).world.find? .certificates key = some entry)
    (more : List (Move desk)) :
    (Office.run stores (moves ++ more)).world.find? .certificates key = some entry :=
  (abides stores moves).lawful.certificates.stays
    (abides stores (moves ++ more)).lawful.certificates (log_prefix_run stores moves more) hfind

theorem revocation_stays {entry : Versioned Revocation} {key : String}
    (hfind : (Office.run stores moves).world.find? .revocations key = some entry)
    (more : List (Move desk)) :
    (Office.run stores (moves ++ more)).world.find? .revocations key = some entry :=
  (abides stores moves).lawful.revocations.stays (abides stores (moves ++ more)).lawful.revocations
    (log_prefix_run stores moves more) hfind

/-- A certificate that was recorded stands. -/
theorem find_of_recorded {issued : IssuedCertificate}
    (hended : (Office.run stores moves).Ended i (.record issued) (.ok ())) :
    (Office.run stores moves).world.find? .certificates issued.serialNumber.text =
      some (.fresh issued) := by
  obtain ⟨rest, htask, houtcome⟩ := hended
  have hleads := Office.leads_of_task (endsWithin_record issued) htask
  rcases hleads.of_query houtcome with ⟨revision, later, hpast, -⟩ | ⟨e, -, herror⟩
  · have hcreated : ⟨i, .table .certificates (.create issued.serialNumber.text issued),
        .ok revision⟩ ∈ (Office.run stores moves).world.past i := by
      rw [hpast]
      exact List.mem_cons_self
    have hcreation := Office.creation_of_created hcreated
    exact (abides stores moves).lawful.certificates.find_of_creation
      (World.mem_past_iff.mp hcreation).1
  · cases herror

/-- Whoever has revoked a certificate was shown the revocation that stands. -/
theorem find_of_revoked {revokedBy : String} {revocation : Revocation}
    (hended : (Office.run stores moves).Ended i (.revoke serial revokedBy) (.ok revocation)) :
    (Office.run stores moves).world.find? .revocations serial.text = some (.fresh revocation) := by
  obtain ⟨rest, htask, houtcome⟩ := hended
  obtain rfl := Procedure.eq_done_of_outcome? houtcome
  have hinquiring := ((abides stores moves).tasks i _ _ htask).promised
  exact find_of_shown (abides stores moves).lawful (abides stores moves).reachable
    hinquiring.completed_of_done

/-- A certificate that stands and is revoked has that status at all times. -/
theorem statusOf_of_revoked {w : World} (hlaw : Law w) {entry : Versioned Revocation}
    (hfind : w.find? .revocations serial.text = some entry) (now : Instant) :
    statusOf? w serial now = some .revoked := by
  have hentered := hlaw.covered serial.text (by rw [hfind]; rfl)
  obtain ⟨certificate, hcertificate⟩ := Option.isSome_iff_exists.mp hentered
  rw [statusOf?, hcertificate, hfind]
  rfl

/-- A status that is answered was the status when the revocation was read. -/
theorem statusOf_of_answered {now : Instant} {status : CertificateStatus}
    (hlater : (Office.run stores moves).tasks.length ≤ j)
    (hended : (Office.run stores (moves ++ more)).Ended j (.statusAt serial now) (.ok status)) :
    ∃ before, before <+: more ∧
      statusOf? (Office.run stores (moves ++ before)).world serial now = some status := by
  obtain ⟨rest, htask, houtcome⟩ := hended
  obtain rfl := Procedure.eq_done_of_outcome? houtcome
  have hinquiring := ((abides stores (moves ++ more)).tasks j _ _ htask).promised
  have hclassified : Classified j serial now ((Office.run stores (moves ++ more)).world.calls j)
    status := hinquiring.completed_of_done
  generalize hcalls : (Office.run stores (moves ++ more)).world.calls j = calls at hclassified
  cases hclassified with
  | read certificate revocation? =>
      have hread : reading j serial (.ok revocation?) ∈
          (Office.run stores (moves ++ more)).world.calls j := by
        rw [hcalls]
        exact List.mem_cons_of_mem _ List.mem_cons_self
      have hlogged := World.mem_log_of_mem_calls hread
      rw [Office.run_append] at hlogged
      obtain ⟨before, hbefore, hfind, hlog⟩ :=
        Office.read_later (abides stores moves).numbered hlater hlogged
      simp only [← Office.run_append] at hfind hlog
      refine ⟨before, hbefore, ?_⟩
      -- The certificate was looked up before, and stood since.
      have hpast := World.calls_prefix rfl hlog
      have hlooked : lookup j serial (.ok (some certificate)) ∈
          (Office.run stores (moves ++ before)).world.calls j := by
        change _ ++ [reading j serial (.ok revocation?)] <+: World.calls _ j at hpast
        rw [hcalls] at hpast
        generalize World.calls _ _ = earlier at hpast ⊢
        cases earlier with
        | nil =>
            obtain ⟨hsame, -⟩ := List.cons_prefix_cons.mp hpast
            cases hsame
        | cons first tail =>
            obtain ⟨rfl, -⟩ := List.cons_prefix_cons.mp hpast
            exact List.mem_cons_self
      have hlawful := (abides stores (moves ++ before)).lawful
      have hwritten := (abides stores (moves ++ before)).reachable.written_of_read
        (World.mem_log_of_mem_calls hlooked)
      rw [statusOf?, hlawful.certificates.find_of_written hwritten, hfind]
      rfl

/-- Along a run, and as time goes on, a status only moves up. -/
theorem rank_statusOf_le {now later : Instant} (hlater : now ≤ later) {status : CertificateStatus}
    (hstatus : statusOf? (Office.run stores moves).world serial now = some status)
    (more : List (Move desk)) :
    ∃ found, statusOf? (Office.run stores (moves ++ more)).world serial later = some found ∧
      status.rank ≤ found.rank := by
  obtain ⟨entry, hentry, rfl⟩ := Option.map_eq_some_iff.mp hstatus
  refine ⟨_, congrArg (Option.map _) (certificate_stays hentry more), ?_⟩
  apply CertificateStatus.rank_classify_le _ hlater
  intro hrevoked
  obtain ⟨revocation, hfind⟩ := Option.isSome_iff_exists.mp hrevoked
  rw [revocation_stays hfind more]
  rfl

/-- Of two answers, the one that was asked for after the other had been given is not lower. -/
theorem rank_answered_le {now later : Instant} {status found : CertificateStatus}
    (hended : (Office.run stores moves).Ended i (.statusAt serial now) (.ok status))
    (hnumber : (Office.run stores moves).tasks.length ≤ j) (hlater : now ≤ later)
    (hfound : (Office.run stores (moves ++ more)).Ended j (.statusAt serial later) (.ok found)) :
    status.rank ≤ found.rank := by
  have hstart : (Office.run stores ([] : List (Move desk))).tasks.length ≤ i := Nat.zero_le i
  obtain ⟨first, ⟨between, rfl⟩, hfirst⟩ := statusOf_of_answered hstart hended
  obtain ⟨second, -, hsecond⟩ := statusOf_of_answered hnumber hfound
  -- It was `status` after `first`, and `found` after all of the moves up to the second read.
  obtain ⟨last, hlast, hrank⟩ := rank_statusOf_le hlater hfirst (between ++ second)
  rw [List.nil_append, ← List.append_assoc, hsecond] at hlast
  cases hlast
  exact hrank

/-- Whoever asks later for the status of a certificate that is revoked is told so. -/
theorem revoked_of_answered {entry : Versioned Revocation}
    (hfind : (Office.run stores moves).world.find? .revocations serial.text = some entry)
    (hlater : (Office.run stores moves).tasks.length ≤ j) {now : Instant}
    {status : CertificateStatus}
    (hended : (Office.run stores (moves ++ more)).Ended j (.statusAt serial now) (.ok status)) :
    status = .revoked := by
  obtain ⟨before, -, hstatus⟩ := statusOf_of_answered hlater hended
  rw [statusOf_of_revoked (abides stores (moves ++ before)).lawful (revocation_stays hfind before)]
    at hstatus
  exact (Option.some.inj hstatus).symm

/-- Whoever asks later for the status of a certificate that is entered is not told that it is
unknown. -/
theorem known_of_entered {entry : Versioned IssuedCertificate}
    (hfind : (Office.run stores moves).world.find? .certificates serial.text = some entry)
    (hlater : (Office.run stores moves).tasks.length ≤ j) {now : Instant} {text : String} :
    ¬ (Office.run stores (moves ++ more)).Ended j (.statusAt serial now)
      (.error (.error (.unknownSerial text))) := by
  rintro ⟨rest, htask, houtcome⟩
  have hinquiring := ((abides stores (moves ++ more)).tasks j _ _ htask).promised
  obtain ⟨-, hmissing⟩ := hinquiring.unknown_iff.mp (Procedure.eq_fail_of_outcome? houtcome)
  have hlogged := World.mem_log_of_mem_calls hmissing
  rw [Office.run_append] at hlogged
  obtain ⟨before, -, hnone, -⟩ := Office.read_later (abides stores moves).numbered hlater hlogged
  rw [← Office.run_append, certificate_stays hfind before] at hnone
  cases hnone

/-- Where stores do not fail, whoever asks for the status of a certificate that is revoked is told
so after two moves of its own. -/
theorem told_of_revoked {further : List (Move desk)} {entry : Versioned Revocation}
    (hfind : (Office.run .reliable moves).world.find? .revocations serial.text = some entry)
    (hlater : (Office.run .reliable moves).tasks.length ≤ j) {now : Instant}
    {rest : Procedure CertificateStatus}
    (htask : (Office.run .reliable (moves ++ more)).tasks[j]? = some ⟨.statusAt serial now, rest⟩)
    (hcount : 2 ≤ further.countP (Move.isBy j)) :
    (Office.run .reliable (moves ++ (more ++ further))).Ended j (.statusAt serial now)
      (.ok .revoked) := by
  have hentered := (abides .reliable moves).lawful.covered serial.text (by rw [hfind]; rfl)
  obtain ⟨certificate, hcertificate⟩ := Option.isSome_iff_exists.mp hentered
  obtain ⟨outcome, hended⟩ := Office.ended_run (endsWithin_statusAt serial now) htask further hcount
  rw [List.append_assoc] at hended
  obtain ⟨last, hlast, houtcome⟩ := hended
  have hinquiring := ((abides .reliable (moves ++ (more ++ further))).tasks j _ _ hlast).promised
  rcases hinquiring.outcome_cases houtcome with ⟨status, rfl⟩ | rfl
  · obtain rfl := revoked_of_answered hfind hlater ⟨last, hlast, houtcome⟩
    exact ⟨last, hlast, houtcome⟩
  · exact absurd ⟨last, hlast, houtcome⟩ (known_of_entered hcertificate hlater)

/-- Whoever is about to look a certificate up is told that it is unknown if and only if there is
none then, and the lookup does not fail. -/
theorem unknown_iff_of_lookup {revokedBy : String}
    (htask : (Office.run stores moves).tasks[i]? =
      some ⟨.revoke serial revokedBy, revoke serial revokedBy⟩)
    (chance : Chance) (more : List (Move desk)) (text : String) :
    (Office.run stores (moves ++ .advance i chance :: more)).Ended i (.revoke serial revokedBy)
        (.error (.error (.unknownSerial text))) ↔
      text = serial.text ∧
        (Office.run stores moves).world.find? .certificates serial.text = none ∧
          (stores = .failing → chance.fault = none) := by
  have hlooked : lookup i serial ((Office.run stores moves).world.reply stores chance
      (.table .certificates (.get serial.text))) ∈
        (Office.run stores (moves ++ .advance i chance :: more)).world.calls i := by
    rw [Office.run_append]
    change _ ∈ (((Office.run stores moves).advance stores i chance).after stores more).world.calls i
    refine World.mem_calls_iff.mpr ⟨World.mem_past_iff.mpr ⟨?_, rfl⟩, rfl⟩
    apply (Office.log_prefix_after stores _ more).subset
    rw [Office.advance_call stores htask]
    exact List.mem_append_right _ List.mem_cons_self
  obtain ⟨rest, hrest, -⟩ := Office.task_after stores htask (.advance i chance :: more)
  rw [← Office.run_append] at hrest
  have hinquiring :=
    ((abides stores (moves ++ .advance i chance :: more)).tasks i _ _ hrest).promised
  rw [← World.reply_get_eq_ok_iff]
  constructor
  · rintro ⟨last, hlast, houtcome⟩
    rw [hrest] at hlast
    cases hlast
    have hfail := Procedure.eq_fail_of_outcome? houtcome
    refine ⟨(hinquiring.unknown_iff.mp hfail).1, ?_⟩
    rcases hinquiring.unknown_or_known with ⟨honly, -⟩ | ⟨-, hother⟩
    · change World.calls _ i = _ at honly
      rw [honly] at hlooked
      injection List.mem_singleton.mp hlooked
    · exact absurd hfail (hother text)
  · rintro ⟨rfl, hreply⟩
    rw [hreply] at hlooked
    have hfail := hinquiring.unknown_iff.mpr ⟨rfl, hlooked⟩
    exact ⟨rest, hrest, congrArg Procedure.outcome? hfail⟩

/-- What is certain of revocations, after any moves. -/
structure Permanence (stores : Stores) (moves : List (Move desk)) : Prop where
  /-- A certificate that was recorded stands, whatever moves follow. -/
  recorded : ∀ i issued, (Office.run stores moves).Ended i (.record issued) (.ok ()) →
    ∀ more, (Office.run stores (moves ++ more)).world.find? .certificates
      issued.serialNumber.text = some (.fresh issued)
  /-- What whoever has revoked a certificate was shown stands, whatever moves follow. -/
  stands : ∀ i serial revokedBy revocation,
    (Office.run stores moves).Ended i (.revoke serial revokedBy) (.ok revocation) →
      ∀ more, (Office.run stores (moves ++ more)).world.find? .revocations serial.text =
        some (.fresh revocation)
  /-- Everybody else who revokes it is shown the same, earlier or later. -/
  same : ∀ i serial revokedBy revocation,
    (Office.run stores moves).Ended i (.revoke serial revokedBy) (.ok revocation) →
      ∀ (more : List (Move desk)) j other found,
        (Office.run stores (moves ++ more)).Ended j (.revoke serial other) (.ok found) →
          found = revocation
  /-- It is revoked at all times. -/
  revoked : ∀ i serial revokedBy revocation,
    (Office.run stores moves).Ended i (.revoke serial revokedBy) (.ok revocation) →
      ∀ (more : List (Move desk)) now,
        statusOf? (Office.run stores (moves ++ more)).world serial now = some .revoked
  /-- Whoever asks for its status from then on is told so, if told anything. -/
  answered : ∀ i serial revokedBy revocation,
    (Office.run stores moves).Ended i (.revoke serial revokedBy) (.ok revocation) →
      ∀ (more : List (Move desk)) j now status, (Office.run stores moves).tasks.length ≤ j →
        (Office.run stores (moves ++ more)).Ended j (.statusAt serial now) (.ok status) →
          status = .revoked
  /-- Where stores do not fail, it is told after two moves of its own. -/
  told : stores = .reliable → ∀ i serial revokedBy revocation,
    (Office.run stores moves).Ended i (.revoke serial revokedBy) (.ok revocation) →
      ∀ (more : List (Move desk)) j now rest, (Office.run stores moves).tasks.length ≤ j →
        (Office.run stores (moves ++ more)).tasks[j]? = some ⟨.statusAt serial now, rest⟩ →
          ∀ further : List (Move desk), 2 ≤ further.countP (Move.isBy j) →
            (Office.run stores (moves ++ (more ++ further))).Ended j (.statusAt serial now)
              (.ok .revoked)
  /-- Revocations stay. -/
  grows : ∀ key entry, (Office.run stores moves).world.find? .revocations key = some entry →
    ∀ more, (Office.run stores (moves ++ more)).world.find? .revocations key = some entry
  /-- Only certificates that are entered are revoked. -/
  covered : ∀ key, ((Office.run stores moves).world.find? .revocations key).isSome →
    ((Office.run stores moves).world.find? .certificates key).isSome
  /-- Whoever is about to look a certificate up is told that it is unknown if and only if there is
  none then, and the lookup does not fail. -/
  unknown : ∀ i serial revokedBy,
    (Office.run stores moves).tasks[i]? =
        some ⟨.revoke serial revokedBy, revoke serial revokedBy⟩ →
      ∀ chance (more : List (Move desk)) text,
        (Office.run stores (moves ++ .advance i chance :: more)).Ended i
            (.revoke serial revokedBy) (.error (.error (.unknownSerial text))) ↔
          text = serial.text ∧
            (Office.run stores moves).world.find? .certificates serial.text = none ∧
              (stores = .failing → chance.fault = none)
  /-- Whoever is told so has written nothing. -/
  unwritten : ∀ i serial revokedBy text,
    (Office.run stores moves).Ended i (.revoke serial revokedBy)
        (.error (.error (.unknownSerial text))) →
      ((Office.run stores moves).world.past i).filter (·.isWrite) = []
  /-- Whoever revokes a certificate has come to an end after four moves of its own. -/
  ends : ∀ i serial revokedBy rest,
    (Office.run stores moves).tasks[i]? = some ⟨.revoke serial revokedBy, rest⟩ →
      ∀ more : List (Move desk), 4 ≤ more.countP (Move.isBy i) →
        ∃ outcome, (Office.run stores (moves ++ more)).Ended i (.revoke serial revokedBy) outcome
  /-- Where stores do not fail, it fails for no other reason than that the certificate is unknown:
  no revocation that was there first ever vanishes. -/
  spared : stores = .reliable → ∀ i serial revokedBy outcome,
    (Office.run stores moves).Ended i (.revoke serial revokedBy) outcome →
      (∃ revocation, outcome = .ok revocation) ∨
        outcome = .error (.error (.unknownSerial serial.text))
  /-- As time goes on, the status of a certificate moves up only. -/
  rises : ∀ serial now status,
    statusOf? (Office.run stores moves).world serial now = some status →
      ∀ (more : List (Move desk)) later, now ≤ later → ∃ found,
        statusOf? (Office.run stores (moves ++ more)).world serial later = some found ∧
          status.rank ≤ found.rank
  /-- So it does for those who ask one after the other. -/
  mounts : ∀ i serial now status,
    (Office.run stores moves).Ended i (.statusAt serial now) (.ok status) →
      ∀ (more : List (Move desk)) j later found,
        (Office.run stores moves).tasks.length ≤ j → now ≤ later →
          (Office.run stores (moves ++ more)).Ended j (.statusAt serial later) (.ok found) →
            status.rank ≤ found.rank

/-- The first revocation of a certificate is its only one, for ever and for everybody. -/
theorem permanence (stores : Stores) (moves : List (Move desk)) : Permanence stores moves where
  recorded := by
    intro i issued hended more
    exact certificate_stays (find_of_recorded hended) more
  stands := by
    intro i serial revokedBy revocation hended more
    exact revocation_stays (find_of_revoked hended) more
  same := by
    intro i serial revokedBy revocation hended more j other found hother
    have hstands := revocation_stays (find_of_revoked hended) more
    rw [find_of_revoked hother] at hstands
    cases hstands
    rfl
  revoked := by
    intro i serial revokedBy revocation hended more now
    exact statusOf_of_revoked (abides stores (moves ++ more)).lawful
      (revocation_stays (find_of_revoked hended) more) now
  answered := by
    intro i serial revokedBy revocation hended more j now status hlater hanswered
    exact revoked_of_answered (find_of_revoked hended) hlater hanswered
  told := by
    rintro rfl i serial revokedBy revocation hended more j now rest hlater htask further hcount
    exact told_of_revoked (find_of_revoked hended) hlater htask hcount
  grows := fun key entry hfind more => revocation_stays hfind more
  covered := (abides stores moves).lawful.covered
  unknown := by
    intro i serial revokedBy htask chance more text
    exact unknown_iff_of_lookup htask chance more text
  unwritten := by
    rintro i serial revokedBy text ⟨rest, htask, houtcome⟩
    have hinquiring := ((abides stores moves).tasks i _ _ htask).promised
    rw [← World.filter_isWrite_calls]
    exact hinquiring.unwritten (Procedure.eq_fail_of_outcome? houtcome)
  ends := by
    intro i serial revokedBy rest htask more hcount
    exact Office.ended_run (endsWithin_revoke serial revokedBy) htask more hcount
  spared := by
    rintro rfl i serial revokedBy outcome ⟨rest, htask, houtcome⟩
    have hinquiring := ((abides .reliable moves).tasks i _ _ htask).promised
    exact hinquiring.outcome_cases houtcome
  rises := by
    intro serial now status hstatus more later hlater
    exact rank_statusOf_le hlater hstatus more
  mounts := by
    intro i serial now status hended more j later found hnumber hlater hfound
    exact rank_answered_le hended hnumber hlater hfound

/-- A certificate is entered, two look it up, and the second of them revokes it first: the other is
shown what the second has entered. -/
example :
    let midnight : Chance := ⟨Instant.ofSeconds 0, fun _ => 0, none⟩
    let moves : List (Move desk) :=
      [.start (.record default), .advance 0 midnight, .start (.revoke default "admin"),
        .start (.revoke default "rival"), .advance 1 midnight, .advance 2 midnight,
        .advance 1 midnight, .advance 2 midnight, .advance 2 midnight, .advance 1 midnight,
        .advance 1 midnight]
    (Office.run .reliable moves).Ended 1 (.revoke default "admin")
      (.ok ⟨default, Instant.ofSeconds 0, "rival"⟩) :=
  ⟨.done ⟨default, Instant.ofSeconds 0, "rival"⟩, rfl, rfl⟩

end Run

end Registry

end CertAuthority
