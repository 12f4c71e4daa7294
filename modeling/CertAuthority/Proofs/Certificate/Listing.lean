import CertAuthority.Proofs.Certificate.Permanence
import CertAuthority.Proofs.Store.Enumeration

/-!
# The list of certificates

A certificate is listed with the status that whoever asks for it is told.  The list is read in two
parts, first the revocations and then the certificates; what is entered in between may be listed,
but with a status that it had before.
-/

namespace CertAuthority.Registry

open Sorting (IsComparison Separates latestThen)

/-- Of two serial numbers the lesser first. -/
def lesserFirst : CertificateSummary → CertificateSummary → Bool :=
  Sorting.textually (·.serialNumber.text)

theorem isComparison_lesserFirst : IsComparison lesserFirst :=
  Sorting.isComparison_textually _

theorem precedes_eq : precedes = latestThen CertificateSummary.issuedAt lesserFirst :=
  rfl

theorem isComparison_precedes : IsComparison precedes :=
  Sorting.isComparison_latestThen _ isComparison_lesserFirst

/-- Lines of which neither comes first are about one serial number. -/
theorem serialNumber_of_precedes {a b : CertificateSummary} (hab : precedes a b)
    (hba : precedes b a) : a.serialNumber.text = b.serialNumber.text := by
  rw [precedes_eq] at hab hba
  obtain ⟨-, hle, hge⟩ := Sorting.tie_of_latestThen hab hba
  exact Sorting.eq_of_textually hle hge

/-- The line of an entry, given the keys of the revocations. -/
def line (now : Instant) (revoked : List String) (entry : String × Versioned IssuedCertificate) :
    CertificateSummary :=
  entry.2.value.summary
    (.classify (revoked.contains entry.1) entry.2.value.expiresAt now)

/-- That certificates stand under their serial numbers, each once. -/
abbrev IsFiled (certificates : Entries IssuedCertificate) : Prop :=
  certificates.Labelled (·.2.value) (·.serialNumber.text)

section Entries

variable {certificates others : Entries IssuedCertificate} {revoked : List String} {now : Instant}
variable {filter : Option CertificateStatus}

theorem IsFiled.lines (hfiled : IsFiled certificates) (now : Instant) (revoked : List String) :
    certificates.Labelled (line now revoked) (·.serialNumber.text) :=
  ⟨hfiled.distinct, hfiled.label⟩

theorem summaries_none : summaries now revoked certificates none =
    (certificates.map (line now revoked)).mergeSort precedes := by
  change ((certificates.map (line now revoked)).filter fun _ => true).mergeSort precedes = _
  rw [List.filter_true]

theorem summaries_some (status : CertificateStatus) :
    summaries now revoked certificates (some status) =
      ((certificates.map (line now revoked)).filter (·.status = status)).mergeSort precedes :=
  rfl

theorem separates (hfiled : IsFiled certificates) (now : Instant) (revoked : List String) :
    Separates precedes (certificates.map (line now revoked)) :=
  (hfiled.lines now revoked).separates fun _ _ => serialNumber_of_precedes

/-- What is listed of one status is that part of the list. -/
theorem summaries_filter (hfiled : IsFiled certificates) (status : CertificateStatus) :
    summaries now revoked certificates (some status) =
      (summaries now revoked certificates none).filter (·.status = status) := by
  rw [summaries_some, summaries_none,
    isComparison_precedes.filter_mergeSort (separates hfiled now revoked)]

/-- Every line has one of three statuses. -/
theorem perm_parts (lines : List CertificateSummary) :
    (lines.filter (·.status = .active) ++
      (lines.filter (·.status = .expired) ++ lines.filter (·.status = .revoked))).Perm lines := by
  induction lines with
  | nil => exact .refl _
  | cons a lines ih =>
      cases hstatus : a.status with
      | active => simpa [hstatus] using ih
      | expired => simpa [hstatus] using List.perm_middle.trans (ih.cons a)
      | revoked =>
          rw [← List.append_assoc] at ih ⊢
          simpa [hstatus] using List.perm_middle.trans (ih.cons a)

/-- The list does not depend on the order in which certificates and revocations are enumerated. -/
theorem summaries_of_perm (hfiled : IsFiled certificates) (hperm : others.Perm certificates)
    {keys : List String} (hkeys : keys.Perm revoked) :
    summaries now keys others filter = summaries now revoked certificates filter := by
  have hlines : (others.map (line now keys)).Perm (certificates.map (line now revoked)) := by
    have hsame : line now keys = line now revoked := by
      funext entry
      rw [line, line, hkeys.contains_eq]
    rw [hsame]
    exact hperm.map _
  cases filter with
  | none =>
      rw [summaries_none, summaries_none]
      exact isComparison_precedes.mergeSort_of_perm (separates hfiled now revoked) hlines
  | some status =>
      rw [summaries_some, summaries_some]
      exact isComparison_precedes.mergeSort_of_perm
        ((separates hfiled now revoked).sublist List.filter_sublist) (hlines.filter _)

theorem mem_summaries {found : CertificateSummary}
    (hmem : found ∈ summaries now revoked certificates filter) :
    ∃ entry ∈ certificates, line now revoked entry = found := by
  have hmem := (List.mem_filter.mp ((List.mergeSort_perm _ precedes).mem_iff.mp hmem)).1
  exact List.mem_map.mp hmem

theorem once_of_filed (hfiled : IsFiled certificates) (key : String) :
    (summaries now revoked certificates none).filter (·.serialNumber.text = key) =
      ((certificates.find? key).map fun entry => line now revoked (key, entry)).toList := by
  rw [summaries_none]
  exact (hfiled.lines now revoked).filter_label precedes key

/-- The later come first, and of one time the lesser serial numbers. -/
theorem pairwise_summaries (hfiled : IsFiled certificates) :
    (summaries now revoked certificates filter).Pairwise fun a b =>
      b.issuedAt < a.issuedAt ∨
        a.issuedAt = b.issuedAt ∧ a.serialNumber.text < b.serialNumber.text := by
  have hall : (summaries now revoked certificates none).Pairwise fun a b =>
      b.issuedAt < a.issuedAt ∨
        a.issuedAt = b.issuedAt ∧ a.serialNumber.text < b.serialNumber.text := by
    rw [summaries_none]
    refine ((hfiled.lines now revoked).pairwise_latestThen CertificateSummary.issuedAt
      isComparison_lesserFirst).imp fun hab => ?_
    exact hab.imp_right fun ⟨heq, htied, hne⟩ => ⟨heq, Sorting.lt_of_textually htied hne⟩
  cases filter with
  | none => exact hall
  | some status =>
      rw [summaries_filter hfiled]
      exact hall.filter _

end Entries

/-- The list of the certificates of a world. -/
def roll (w : World) (now : Instant) (filter : Option CertificateStatus) :
    List CertificateSummary :=
  summaries now ((w.tables .revocations).entries.map (·.1)) (w.tables .certificates).entries filter

/-- What is entered as a certificate stands under its serial number. -/
theorem isFiled_of_law {w : World} (hlaw : Law w) (horderly : w.Orderly) :
    IsFiled (w.tables .certificates).entries :=
  .of_find (horderly .certificates) fun _ _ hfind =>
    (hlaw.certificates.creation_of_find hfind).1

section Host

variable {h : Host} {certificates : Entries IssuedCertificate} {revocations : Entries Revocation}

theorem run_list (hcertificates : h.Lists .certificates certificates)
    (hrevocations : h.Lists .revocations revocations) (filter : Option CertificateStatus) :
    ((list filter).run Host.reply h).1 =
      .ok (summaries h.now (revocations.map (·.1)) certificates filter) := by
  change (((Procedure.query .revocations .list).bind _).run Host.reply h.advance).1 = _
  refine (congrArg Prod.fst (hrevocations.advance.run_list _)).trans ?_
  exact congrArg Prod.fst (hcertificates.advance.advance.run_list fun certificates =>
    .done (summaries h.now (revocations.map (·.1)) certificates filter))

theorem run_get (hcertificates : h.Lists .certificates certificates) (serial : SerialNumber) :
    (get serial).run Host.reply h = (match certificates.find? serial.text with
      | some entry => .ok entry.value
      | none => .error (.error (.unknownSerial serial.text)), h.advance) := by
  rw [show get serial = (Procedure.query .certificates (.get serial.text)).bind _ from rfl]
  refine (hcertificates.run_get serial.text _).trans ?_
  cases certificates.find? serial.text <;> rfl

theorem run_isRevoked (hrevocations : h.Lists .revocations revocations) (serial : SerialNumber) :
    (isRevoked serial).run Host.reply h =
      (.ok (revocations.find? serial.text).isSome, h.advance) :=
  hrevocations.run_get serial.text fun found => .done found.isSome

theorem run_statusAt (hcertificates : h.Lists .certificates certificates)
    (hrevocations : h.Lists .revocations revocations) (serial : SerialNumber) (now : Instant) :
    ((statusAt serial now).run Host.reply h).1 =
      ((certificates.find? serial.text).map fun entry => CertificateStatus.classify
        (revocations.find? serial.text).isSome entry.value.expiresAt now).elim
          (.error (.error (.unknownSerial serial.text))) .ok := by
  rw [show statusAt serial now = (get serial).bind _ from rfl, Procedure.run_bind,
    run_get hcertificates]
  cases certificates.find? serial.text with
  | none => rfl
  | some entry =>
      change (((isRevoked serial).bind _).run Host.reply h.advance).1 = _
      rw [Procedure.run_bind, run_isRevoked hrevocations.advance]
      rfl

end Host

section World

variable {w : World} {h : Host}

theorem run_list_of_holds (hfiled : IsFiled (w.tables .certificates).entries)
    (hcertificates : h.Holds .certificates w) (hrevocations : h.Holds .revocations w)
    (filter : Option CertificateStatus) :
    ((list filter).run Host.reply h).1 = .ok (roll w h.now filter) := by
  obtain ⟨certificates, hcertificates, hperm⟩ := hcertificates
  obtain ⟨revocations, hrevocations, hkeys⟩ := hrevocations
  rw [run_list hcertificates hrevocations, summaries_of_perm hfiled hperm (hkeys.map _)]
  rfl

/-- Whoever asks a host for a status is told what its tables tell. -/
theorem run_statusAt_of_holds (horderly : w.Orderly) (hcertificates : h.Holds .certificates w)
    (hrevocations : h.Holds .revocations w) (serial : SerialNumber) (now : Instant) :
    ((statusAt serial now).run Host.reply h).1 =
      (statusOf? w serial now).elim (.error (.error (.unknownSerial serial.text))) .ok := by
  obtain ⟨certificates, hcertificates, hperm⟩ := hcertificates
  obtain ⟨revocations, hrevocations, hkeys⟩ := hrevocations
  rw [run_statusAt hcertificates hrevocations,
    Entries.find?_of_perm (horderly .certificates) hperm,
    Entries.find?_of_perm (horderly .revocations) hkeys]
  rfl

/-- The line of an entry, given the revocations of a world. -/
theorem line_of_keys (w : World) (now : Instant) (entry : String × Versioned IssuedCertificate) :
    line now ((w.tables .revocations).entries.map (·.1)) entry = entry.2.value.summary
      (.classify (w.find? .revocations entry.1).isSome entry.2.value.expiresAt now) := by
  rw [line, Entries.contains_keys]
  rfl

/-- A line has the status that the tables tell. -/
theorem statusOf_of_line {key : String} {entry : Versioned IssuedCertificate}
    (hfind : w.find? .certificates key = some entry) (hown : entry.value.serialNumber.text = key)
    (now : Instant) : statusOf? w entry.value.serialNumber now =
      some (line now ((w.tables .revocations).entries.map (·.1)) (key, entry)).status := by
  rw [statusOf?, hown, hfind, line_of_keys]
  rfl

end World

/-! ### Lists that are read while others act -/

/-- The reading of a whole table, with its answer. -/
def survey (task : Nat) (name : TableName) (answer : Except CaError (Entries name.Row)) : Event :=
  ⟨task, .table name .list, answer⟩

theorem endsWithin_list (filter : Option CertificateStatus) : (list filter).EndsWithin 3 := by
  intro now reply
  cases reply with
  | error e => exact nofun
  | ok revocations =>
      intro reply
      cases reply with
      | error e => exact nofun
      | ok certificates => trivial

/-- Whoever has come to an end with the list has read the clock and both tables, or a table has
failed. -/
theorem outcome_of_leads {task : Nat} {filter : Option CertificateStatus} {past : List Event}
    {rest : Procedure (List CertificateSummary)}
    {outcome : Except Failure (List CertificateSummary)}
    (hleads : (list filter).Leads task past rest) (houtcome : rest.outcome? = some outcome) :
    (∃ now revocations certificates,
        past = [⟨task, .now, now⟩, survey task .revocations (.ok revocations),
          survey task .certificates (.ok certificates)] ∧
        outcome = .ok (summaries now (revocations.map (·.1)) certificates filter)) ∨
      ∃ name e, survey task name (.error e) ∈ past ∧ outcome = .error (.error e) := by
  obtain ⟨now, later, rfl, hfirst⟩ := hleads.of_call houtcome
  rcases Procedure.Leads.of_query hfirst houtcome with ⟨revocations, later, rfl, hsecond⟩ |
    ⟨e, rfl, rfl⟩
  · rcases Procedure.Leads.of_query hsecond houtcome with ⟨certificates, later, rfl, hthird⟩ |
      ⟨e, rfl, rfl⟩
    · cases hthird
      cases houtcome
      exact .inl ⟨now, revocations, certificates, rfl, rfl⟩
    · refine .inr ⟨.certificates, e, ?_, rfl⟩
      exact List.mem_cons_of_mem _ (List.mem_cons_of_mem _ List.mem_cons_self)
  · exact .inr ⟨.revocations, e, List.mem_cons_of_mem _ List.mem_cons_self, rfl⟩

/-- The revocations are read before the certificates. -/
theorem length_lt_of_surveys {task : Nat} {now : Instant} {earlier later : List Event}
    {revocations : Entries Revocation} {certificates : Entries IssuedCertificate}
    (hearlier : earlier ++ [survey task .revocations (.ok revocations)] <+:
      [⟨task, .now, now⟩, survey task .revocations (.ok revocations),
        survey task .certificates (.ok certificates)])
    (hlater : later ++ [survey task .certificates (.ok certificates)] <+:
      [⟨task, .now, now⟩, survey task .revocations (.ok revocations),
        survey task .certificates (.ok certificates)]) : earlier.length < later.length := by
  -- The effects alone tell which of the three events it is.
  have hfirst : earlier.length = 1 := by
    have heffects := hearlier.map Event.effect
    rcases earlier with _ | ⟨a, _ | ⟨b, _ | ⟨c, tail⟩⟩⟩ <;> simp [survey] at heffects ⊢
  have hsecond : later.length = 2 := by
    have heffects := hlater.map Event.effect
    rcases later with _ | ⟨a, _ | ⟨b, _ | ⟨c, tail⟩⟩⟩ <;> simp [survey] at heffects ⊢
  omega

section Run

variable {stores : Stores} {moves more : List (Move desk)} {i j : Nat}
variable {filter : Option CertificateStatus} {lines : List CertificateSummary}

theorem isFiled_run (stores : Stores) (moves : List (Move desk)) :
    IsFiled ((Office.run stores moves).world.tables .certificates).entries :=
  isFiled_of_law (abides stores moves).lawful (abides stores moves).reachable.orderly

theorem outcome_of_ended {outcome : Except Failure (List CertificateSummary)}
    (hended : (Office.run stores moves).Ended i (.list filter) outcome) :
    (∃ now revocations certificates,
        (Office.run stores moves).world.past i =
          [⟨i, .now, now⟩, survey i .revocations (.ok revocations),
            survey i .certificates (.ok certificates)] ∧
        outcome = .ok (summaries now (revocations.map (·.1)) certificates filter)) ∨
      ∃ name e, survey i name (.error e) ∈ (Office.run stores moves).world.past i ∧
        outcome = .error (.error e) := by
  obtain ⟨rest, htask, houtcome⟩ := hended
  exact outcome_of_leads (Office.leads_of_task (endsWithin_list filter) htask) houtcome

/-- The list shows the revocations as they were at some time, and the certificates as they were at a
time after that. -/
theorem tables_of_listed (hlater : (Office.run stores moves).tasks.length ≤ j)
    (hended : (Office.run stores (moves ++ more)).Ended j (.list filter) (.ok lines)) :
    ∃ now first second, first <+: second ∧ second <+: more ∧
      ⟨j, .now, now⟩ ∈ (Office.run stores (moves ++ more)).world.past j ∧
      lines = summaries now
        (((Office.run stores (moves ++ first)).world.tables .revocations).entries.map (·.1))
        ((Office.run stores (moves ++ second)).world.tables .certificates).entries filter := by
  have hnumbered := (abides stores moves).numbered
  rcases outcome_of_ended hended with ⟨now, revocations, certificates, hpast, hlines⟩ |
    ⟨name, e, -, herror⟩
  · cases hlines
    have hfirst : survey j .revocations (.ok revocations) ∈
        (Office.run stores (moves ++ more)).world.past j := by simp [hpast]
    have hsecond : survey j .certificates (.ok certificates) ∈
        (Office.run stores (moves ++ more)).world.past j := by simp [hpast]
    have hclock : (⟨j, .now, now⟩ : Event) ∈
        (Office.run stores (moves ++ more)).world.past j := by simp [hpast]
    rw [Office.run_append] at hfirst hsecond hpast
    obtain ⟨first, hbefore, rfl, hread⟩ := Office.listed_later hnumbered hlater hfirst
    obtain ⟨second, hthen, rfl, hreadThen⟩ := Office.listed_later hnumbered hlater hsecond
    rw [hpast] at hread hreadThen
    -- The past of a task only grows: what it read earlier, it read after fewer moves.
    have horder := Office.prefix_of_past_lt hbefore hthen (length_lt_of_surveys hread hreadThen)
    refine ⟨now, first, second, horder, hthen, hclock, ?_⟩
    simp only [Office.run_append]
  · cases herror

/-- Whoever lists the certificates later than one was revoked is told so of it. -/
theorem revoked_of_listed {key : String} {entry : Versioned Revocation}
    (hfind : (Office.run stores moves).world.find? .revocations key = some entry)
    (hlater : (Office.run stores moves).tasks.length ≤ j)
    (hended : (Office.run stores (moves ++ more)).Ended j (.list filter) (.ok lines))
    {found : CertificateSummary} (hfound : found ∈ lines)
    (hkey : found.serialNumber.text = key) : found.status = .revoked := by
  obtain ⟨now, first, second, -, -, -, rfl⟩ := tables_of_listed hlater hended
  obtain ⟨listed, hlisted, rfl⟩ := mem_summaries hfound
  have hown : listed.2.value.serialNumber.text = listed.1 :=
    (isFiled_run stores (moves ++ second)).label listed hlisted
  have hrevoked : (Office.run stores (moves ++ first)).world.find? .revocations listed.1 =
      some entry := by
    rw [← hown]
    exact hkey ▸ revocation_stays hfind first
  rw [line_of_keys, hrevoked]
  rfl

/-- Whoever lists all certificates later than one was entered is shown it once, with the status that
it had at some time since. -/
theorem once_of_listed {key : String} {entry : Versioned IssuedCertificate}
    (hfind : (Office.run stores moves).world.find? .certificates key = some entry)
    (hlater : (Office.run stores moves).tasks.length ≤ j)
    (hended : (Office.run stores (moves ++ more)).Ended j (.list none) (.ok lines)) :
    ∃ now before status, before <+: more ∧
      ⟨j, .now, now⟩ ∈ (Office.run stores (moves ++ more)).world.past j ∧
      statusOf? (Office.run stores (moves ++ before)).world entry.value.serialNumber now =
        some status ∧
      lines.filter (·.serialNumber.text = key) = [entry.value.summary status] := by
  obtain ⟨now, first, second, hfirst, hsecond, hclock, rfl⟩ := tables_of_listed hlater hended
  have hown := ((abides stores moves).lawful.certificates.creation_of_find hfind).1
  refine ⟨now, first, _, hfirst.trans hsecond, hclock,
    statusOf_of_line (certificate_stays hfind first) hown now, ?_⟩
  have hstands : ((Office.run stores (moves ++ second)).world.tables .certificates).entries.find?
      key = some entry := certificate_stays hfind second
  rw [once_of_filed (isFiled_run stores (moves ++ second)), hstands]
  rfl

end Run

/-- What is certain of the list of certificates, after any moves. -/
structure Listing (stores : Stores) (moves : List (Move desk)) : Prop where
  /-- Every host that has the certificates and the revocations lists the same, wherever it keeps
  them, and in whatever order it enumerates them. -/
  listed : ∀ h : Host, h.Holds .certificates (Office.run stores moves).world →
    h.Holds .revocations (Office.run stores moves).world →
      ∀ filter, ((list filter).run Host.reply h).1 =
        .ok (roll (Office.run stores moves).world h.now filter)
  /-- A host may have them in memory in any order, or in a file that was asked the same. -/
  held : ∀ (h : Host) (name : TableName),
    (∃ m, h.tables.table name = .memory m ∧
        m.entries.Perm ((Office.run stores moves).world.tables name).entries) ∨
      (∃ t asks, h.tables.table name = .file t ∧
        Table.Matches asks ((Office.run stores moves).world.tables name) t h.disk) →
    h.Holds name (Office.run stores moves).world
  /-- Every line has the status that whoever asks for it at that time is told. -/
  agrees : ∀ h : Host, h.Holds .certificates (Office.run stores moves).world →
    h.Holds .revocations (Office.run stores moves).world →
      ∀ now, ∀ found ∈ roll (Office.run stores moves).world now none,
        ((statusAt found.serialNumber now).run Host.reply h).1 = .ok found.status
  /-- Every certificate is listed once, and nothing else is. -/
  once : ∀ now key, (roll (Office.run stores moves).world now none).filter
      (·.serialNumber.text = key) =
    (((Office.run stores moves).world.find? .certificates key).map fun entry =>
      entry.value.summary (.classify
        ((Office.run stores moves).world.find? .revocations key).isSome
        entry.value.expiresAt now)).toList
  /-- What is listed of one status is that part of the list, in its order. -/
  filtered : ∀ now status, roll (Office.run stores moves).world now (some status) =
    (roll (Office.run stores moves).world now none).filter (·.status = status)
  /-- The three parts make up the list. -/
  parted : ∀ now, (roll (Office.run stores moves).world now (some .active) ++
      (roll (Office.run stores moves).world now (some .expired) ++
        roll (Office.run stores moves).world now (some .revoked))).Perm
    (roll (Office.run stores moves).world now none)
  /-- The later are listed first, and of one time the lesser serial numbers. -/
  ordered : ∀ now filter, (roll (Office.run stores moves).world now filter).Pairwise fun a b =>
    b.issuedAt < a.issuedAt ∨
      a.issuedAt = b.issuedAt ∧ a.serialNumber.text < b.serialNumber.text
  /-- Whoever lists them while others act is shown the revocations as they were at some time since,
  and the certificates as they were at a time after that. -/
  told : ∀ (more : List (Move desk)) j filter (lines : List CertificateSummary),
    (Office.run stores moves).tasks.length ≤ j →
      (Office.run stores (moves ++ more)).Ended j (.list filter) (.ok lines) →
        ∃ now first second, first <+: second ∧ second <+: more ∧
          ⟨j, .now, now⟩ ∈ (Office.run stores (moves ++ more)).world.past j ∧
          ∀ (revocations : Entries Revocation) (certificates : Entries IssuedCertificate),
            revocations.Perm
                ((Office.run stores (moves ++ first)).world.tables .revocations).entries →
              certificates.Perm
                  ((Office.run stores (moves ++ second)).world.tables .certificates).entries →
                lines = summaries now (revocations.map (·.1)) certificates filter
  /-- What was revoked before is never listed as active or expired. -/
  revoked : ∀ i serial revokedBy revocation,
    (Office.run stores moves).Ended i (.revoke serial revokedBy) (.ok revocation) →
      ∀ (more : List (Move desk)) j filter (lines : List CertificateSummary),
        (Office.run stores moves).tasks.length ≤ j →
          (Office.run stores (moves ++ more)).Ended j (.list filter) (.ok lines) →
            ∀ found ∈ lines, found.serialNumber.text = serial.text → found.status = .revoked
  /-- What was entered before is listed once, with the status that it had at some time since. -/
  entered : ∀ key entry,
    (Office.run stores moves).world.find? .certificates key = some entry →
      ∀ (more : List (Move desk)) j (lines : List CertificateSummary),
        (Office.run stores moves).tasks.length ≤ j →
          (Office.run stores (moves ++ more)).Ended j (.list none) (.ok lines) →
            ∃ now before status, before <+: more ∧
              ⟨j, .now, now⟩ ∈ (Office.run stores (moves ++ more)).world.past j ∧
              statusOf? (Office.run stores (moves ++ before)).world
                entry.value.serialNumber now = some status ∧
              lines.filter (·.serialNumber.text = key) = [entry.value.summary status]
  /-- So is whatever was recorded before. -/
  recorded : ∀ i issued, (Office.run stores moves).Ended i (.record issued) (.ok ()) →
    ∀ (more : List (Move desk)) j (lines : List CertificateSummary),
      (Office.run stores moves).tasks.length ≤ j →
        (Office.run stores (moves ++ more)).Ended j (.list none) (.ok lines) →
          ∃ now before status, before <+: more ∧
            ⟨j, .now, now⟩ ∈ (Office.run stores (moves ++ more)).world.past j ∧
            statusOf? (Office.run stores (moves ++ before)).world issued.serialNumber now =
              some status ∧
            lines.filter (·.serialNumber.text = issued.serialNumber.text) =
              [issued.summary status]
  /-- Whoever lists them has come to an end after three moves of its own. -/
  ends : ∀ i filter rest,
    (Office.run stores moves).tasks[i]? = some ⟨.list filter, rest⟩ →
      ∀ more : List (Move desk), 3 ≤ more.countP (Move.isBy i) →
        ∃ outcome, (Office.run stores (moves ++ more)).Ended i (.list filter) outcome
  /-- Where stores do not fail, it does not fail. -/
  spared : stores = .reliable → ∀ i filter outcome,
    (Office.run stores moves).Ended i (.list filter) outcome → ∃ lines, outcome = .ok lines

/-- There is one list of the certificates, with the statuses that whoever asks is told. -/
theorem certificate_listing (stores : Stores) (moves : List (Move desk)) :
    Listing stores moves where
  listed := by
    intro h hcertificates hrevocations filter
    exact run_list_of_holds (isFiled_run stores moves) hcertificates hrevocations filter
  held := fun _ _ => Host.holds_of_kept
  agrees := by
    intro h hcertificates hrevocations now found hfound
    have horderly := (abides stores moves).reachable.orderly
    obtain ⟨⟨key, entry⟩, hentry, rfl⟩ := mem_summaries hfound
    have hfind := Entries.find?_eq_some_of_mem (horderly .certificates) hentry
    rw [run_statusAt_of_holds horderly hcertificates hrevocations]
    change (statusOf? _ entry.value.serialNumber now).elim _ _ = _
    rw [statusOf_of_line hfind ((isFiled_run stores moves).label _ hentry)]
    rfl
  once := by
    intro now key
    have hlines := funext fun entry : Versioned IssuedCertificate =>
      line_of_keys (Office.run stores moves).world now (key, entry)
    exact (once_of_filed (isFiled_run stores moves) key).trans
      (congrArg (fun view => (Option.map view _).toList) hlines)
  filtered := fun now status => summaries_filter (isFiled_run stores moves) status
  parted := by
    intro now
    simp only [roll, summaries_filter (isFiled_run stores moves)]
    exact perm_parts _
  ordered := fun now filter => pairwise_summaries (isFiled_run stores moves)
  told := by
    intro more j filter lines hlater hended
    obtain ⟨now, first, second, horder, hsecond, hclock, rfl⟩ := tables_of_listed hlater hended
    refine ⟨now, first, second, horder, hsecond, hclock, ?_⟩
    intro revocations certificates hrevocations hcertificates
    exact (summaries_of_perm (isFiled_run stores (moves ++ second)) hcertificates
      (hrevocations.map _)).symm
  revoked := by
    intro i serial revokedBy revocation hended more j filter lines hlater hlisted found hfound
    exact revoked_of_listed (find_of_revoked hended) hlater hlisted hfound
  entered := by
    intro key entry hfind more j lines hlater hlisted
    exact once_of_listed hfind hlater hlisted
  recorded := by
    intro i issued hended more j lines hlater hlisted
    exact once_of_listed (find_of_recorded hended) hlater hlisted
  ends := by
    intro i filter rest htask more hcount
    exact Office.ended_run (endsWithin_list filter) htask more hcount
  spared := by
    rintro rfl i filter outcome hended
    rcases outcome_of_ended hended with ⟨now, revocations, certificates, -, rfl⟩ |
      ⟨name, e, hfailed, -⟩
    · exact ⟨_, rfl⟩
    · obtain ⟨before, chance, -, hreply⟩ := Office.replied hfailed
      change Except.error e = Except.ok _ at hreply
      cases hreply

end CertAuthority.Registry
