import CertAuthority.Proofs.Certificate.Register

/-!
# Revoking, and asking for a status

Both look the certificate up first, and call its serial number unknown if and only if it was not
entered then.  Whoever revokes it goes on to enter a revocation, or to read the one that was there
first; whoever asks for its status goes on to read whether it is revoked.
-/

namespace CertAuthority.Registry

variable {α : Type}

/-- The lookup of a certificate with its answer. -/
def lookup (task : Nat) (serial : SerialNumber)
    (answer : Except CaError (Option (Versioned IssuedCertificate))) : Event :=
  ⟨task, .table .certificates (.get serial.text), answer⟩

/-- The reading of a revocation with its answer. -/
def reading (task : Nat) (serial : SerialNumber)
    (answer : Except CaError (Option (Versioned Revocation))) : Event :=
  ⟨task, .table .revocations (.get serial.text), answer⟩

/-- That no call was answered that there is no certificate. -/
def Known (task : Nat) (serial : SerialNumber) (calls : List Event) : Prop :=
  ∀ event ∈ calls, event ≠ lookup task serial (.ok none)

theorem known_nil (task : Nat) (serial : SerialNumber) : Known task serial [] :=
  List.forall_mem_nil _

theorem Known.append {task : Nat} {serial : SerialNumber} {calls : List Event}
    (hknown : Known task serial calls) {event : Event}
    (hevent : event ≠ lookup task serial (.ok none)) : Known task serial (calls ++ [event]) :=
  List.forall_mem_append.mpr ⟨hknown, List.forall_mem_singleton.mpr hevent⟩

theorem known_found (task : Nat) (serial : SerialNumber)
    (certificate : Versioned IssuedCertificate) :
    Known task serial [lookup task serial (.ok (some certificate))] :=
  (known_nil task serial).append nofun

/-- What is told of a certificate that is looked up first.  What the result follows from is left to
the kind of the inquiry. -/
inductive Inquiring (stores : Stores) (task : Nat) (serial : SerialNumber)
    (completed : List Event → α → Prop) : Account α where
  | going {calls : List Event} {rest : Procedure α} (hgoing : rest.Going)
    (hknown : Known task serial calls) :
    Inquiring stores task serial completed calls rest
  | unknown :
    Inquiring stores task serial completed [lookup task serial (.ok none)]
      (.fail (.error (.unknownSerial serial.text)))
  /-- Some call has failed. -/
  | failed {calls : List Event} {e : CaError} (hfailing : stores = .failing) (htable : e.isOfTable)
    (hknown : Known task serial calls) :
    Inquiring stores task serial completed calls (.fail (.error e))
  | completed {calls : List Event} {a : α} (hcompleted : completed calls a)
    (hknown : Known task serial calls) :
    Inquiring stores task serial completed calls (.done a)

/-- The revocation that is shown: the one that was entered, or the one that was there first. -/
inductive Shown (task : Nat) (serial : SerialNumber) (revokedBy : String) :
    List Event → Revocation → Prop where
  | entered {calls : List Event} {now : Instant}
    (hcreation : .creation task .revocations serial.text ⟨serial, now, revokedBy⟩ ∈ calls) :
    Shown task serial revokedBy calls ⟨serial, now, revokedBy⟩
  | earlier {calls : List Event} {entry : Versioned Revocation}
    (hread : reading task serial (.ok (some entry)) ∈ calls) :
    Shown task serial revokedBy calls entry.value

/-- The status that is answered: it follows from the certificate, and from whether it was revoked
when that was read. -/
inductive Classified (task : Nat) (serial : SerialNumber) (now : Instant) :
    List Event → CertificateStatus → Prop where
  | read (certificate : Versioned IssuedCertificate) (revocation? : Option (Versioned Revocation)) :
    Classified task serial now
      [lookup task serial (.ok (some certificate)), reading task serial (.ok revocation?)]
      (.classify revocation?.isSome certificate.value.expiresAt now)

section Consequences

variable {stores : Stores} {task : Nat} {serial : SerialNumber}
variable {completed : List Event → α → Prop} {calls : List Event} {rest : Procedure α}

/-- Either there was no certificate at the lookup, nothing else was asked, and the serial number is
called unknown, or that was never answered, and it is not. -/
theorem Inquiring.unknown_or_known
    (hinquiring : Inquiring stores task serial completed calls rest) :
    calls = [lookup task serial (.ok none)] ∧
        rest = .fail (.error (.unknownSerial serial.text)) ∨
      Known task serial calls ∧ ∀ text, rest ≠ .fail (.error (.unknownSerial text)) := by
  cases hinquiring with
  | going hgoing hknown =>
      refine .inr ⟨hknown, ?_⟩
      rintro text rfl
      exact hgoing
  | unknown => exact .inl ⟨rfl, rfl⟩
  | failed hfailing htable hknown =>
      refine .inr ⟨hknown, ?_⟩
      rintro text ⟨⟩
      cases htable
  | completed hcompleted hknown => exact .inr ⟨hknown, nofun⟩

/-- A serial number is called unknown if and only if there was no certificate at the lookup. -/
theorem Inquiring.unknown_iff (hinquiring : Inquiring stores task serial completed calls rest)
    {text : String} :
    rest = .fail (.error (.unknownSerial text)) ↔
      text = serial.text ∧ lookup task serial (.ok none) ∈ calls := by
  rcases hinquiring.unknown_or_known with ⟨rfl, rfl⟩ | ⟨hknown, hrest⟩
  · simp [eq_comm]
  · exact ⟨fun h => absurd h (hrest text), fun h => absurd rfl (hknown _ h.2)⟩

/-- Whose serial number was unknown has written nothing. -/
theorem Inquiring.unwritten (hinquiring : Inquiring stores task serial completed calls rest)
    {text : String} (hunknown : rest = .fail (.error (.unknownSerial text))) :
    calls.filter (·.isWrite) = [] := by
  rcases hinquiring.unknown_or_known with ⟨rfl, -⟩ | ⟨-, hrest⟩
  · rfl
  · exact absurd hunknown (hrest text)

theorem Inquiring.completed_of_done {a : α}
    (hinquiring : Inquiring stores task serial completed calls (.done a)) : completed calls a := by
  cases hinquiring with
  | going hgoing hknown => exact hgoing.elim
  | completed hcompleted hknown => exact hcompleted

theorem Inquiring.finished :
    ¬ Inquiring stores task serial completed calls (.fail .unfinished) := by
  intro hinquiring
  cases hinquiring with
  | going hgoing hknown => exact hgoing

/-- Where stores do not fail, there are no other errors. -/
theorem Inquiring.outcome_cases (hinquiring : Inquiring .reliable task serial completed calls rest)
    {outcome : Except Failure α} (houtcome : rest.outcome? = some outcome) :
    (∃ a, outcome = .ok a) ∨ outcome = .error (.error (.unknownSerial serial.text)) := by
  cases hinquiring with
  | going hgoing hknown =>
      cases rest with
      | done a => exact hgoing.elim
      | fail f => exact hgoing.elim
      | call e next => cases houtcome
  | unknown =>
      cases houtcome
      exact .inr rfl
  | failed hfailing htable hknown => cases hfailing
  | completed hcompleted hknown =>
      cases houtcome
      exact .inl ⟨_, rfl⟩

end Consequences

section Conduct

variable {stores : Stores} {task : Nat} {w : World} {serial : SerialNumber}
variable {completed : List Event → α → Prop}

/-- Looks a certificate up, which then stands. -/
theorem keeps_lookup {next : IssuedCertificate → Procedure α} (hcalls : w.calls task = [])
    (hnext : ∀ certificate (later : World), Law later →
      later.find? .certificates serial.text = some certificate →
      later.calls task = [lookup task serial (.ok (some certificate))] →
        (next certificate.value).Keeps Law stores task
          (.ofAccount (Inquiring stores task serial completed)) later) :
    ((get serial).bind next).Keeps Law stores task
      (.ofAccount (Inquiring stores task serial completed)) w := by
  apply Procedure.keeps_get steady_law hcalls (.going trivial (known_nil task serial))
  · intro e later htable hfailing hsame
    exact Procedure.keeps_fail _ hsame
      (.failed hfailing htable ((known_nil task serial).append nofun))
  · intro found later hlaw hlater _ hlog _ hsame
    cases hfind : found.find? .certificates serial.text with
    | none =>
        rw [hfind] at hsame
        exact Procedure.keeps_fail _ hsame .unknown
    | some certificate =>
        rw [hfind] at hsame
        exact hnext certificate later hlater
          (hlaw.certificates.stays hlater.certificates hlog hfind) hsame

theorem keeps_statusAt (now : Instant) (hcalls : w.calls task = []) :
    (statusAt serial now).Keeps Law stores task
      (.ofAccount (Inquiring stores task serial (Classified task serial now))) w := by
  apply keeps_lookup hcalls
  intro certificate later hlater _ hsame
  have hknown := known_found task serial certificate
  apply Procedure.keeps_get steady_law hsame (.going trivial hknown)
  · intro e last htable hfailing hlast
    exact Procedure.keeps_fail _ hlast (.failed hfailing htable (hknown.append nofun))
  · intro found last _ _ _ _ _ hlast
    exact Procedure.keeps_done _ hlast (.completed (.read certificate _) (hknown.append nofun))

/-- Reads the revocation that was there first. -/
theorem keeps_earlier {revokedBy : String} {calls : List Event} (hlaw : Law w)
    (hcalls : w.calls task = calls) (hknown : Known task serial calls)
    (htaken : stores = .failing ∨ ∃ held, w.find? .revocations serial.text = some held) :
    (earlier serial).Keeps Law stores task
      (.ofAccount (Inquiring stores task serial (Shown task serial revokedBy))) w := by
  have hasked (answer : Except CaError (Option (Versioned Revocation))) :
      Known task serial (calls ++ [reading task serial answer]) := hknown.append nofun
  apply Procedure.keeps_get steady_law hcalls (.going trivial hknown)
  · intro e later htable hfailing hsame
    exact Procedure.keeps_fail _ hsame (.failed hfailing htable (hasked _))
  · intro found later hfound hlater hbefore hlog _ hsame
    cases hfind : found.find? .revocations serial.text with
    | none =>
        rw [hfind] at hsame
        rcases htaken with hfailing | ⟨held, hheld⟩
        · exact Procedure.keeps_fail _ hsame (.failed hfailing rfl (hasked _))
        · rw [hlaw.revocations.stays hfound.revocations hbefore hheld] at hfind
          cases hfind
    | some entry =>
        rw [hfind] at hsame
        exact Procedure.keeps_done _ hsame (.completed
          (.earlier (List.mem_append_right _ List.mem_cons_self)) (hasked _))

/-- What follows upon the attempt to enter a revocation. -/
theorem keeps_revoked {now : Instant} {revokedBy : String}
    {certificate : Versioned IssuedCertificate} {found : World} {chance : Chance}
    {reply : Except CaError Nat} (hfound : Law found) (hlaw : Law w) (hlog : found.log <+: w.log)
    (hreply : found.reply stores chance
      (.table .revocations (.create serial.text ⟨serial, now, revokedBy⟩)) = reply)
    (hcalls : w.calls task = [lookup task serial (.ok (some certificate))] ++
      [⟨task, .table .revocations (.create serial.text ⟨serial, now, revokedBy⟩), reply⟩]) :
    (revoked ⟨serial, now, revokedBy⟩ reply).Keeps Law stores task
      (.ofAccount (Inquiring stores task serial (Shown task serial revokedBy))) w := by
  have hknown (reply : Except CaError Nat) : Known task serial
      ([lookup task serial (.ok (some certificate))] ++
        [⟨task, .table .revocations (.create serial.text ⟨serial, now, revokedBy⟩), reply⟩]) :=
    (known_found task serial certificate).append nofun
  rcases found.create_cases stores chance task .revocations serial.text
      ⟨serial, now, revokedBy⟩ with ⟨e, htable, herror, -⟩ | ⟨-, hok, -⟩
  · rw [herror] at hreply
    subst hreply
    have htaken := World.create_error_cases herror
    unfold revoked
    split
    · next hok => cases hok
    · apply keeps_earlier hlaw hcalls (hknown _)
      rcases htaken with hfailing | ⟨-, held, hheld⟩
      · exact .inl hfailing
      · exact .inr ⟨held, hfound.revocations.stays hlaw.revocations hlog hheld⟩
    · next hother herror =>
        cases herror
        rcases htaken with hfailing | ⟨rfl, -⟩
        · exact Procedure.keeps_fail _ hcalls (.failed hfailing htable (hknown _))
        · exact absurd rfl (hother _)
  · rw [hok] at hreply
    subst hreply
    exact Procedure.keeps_done _ hcalls (.completed
      (.entered (List.mem_append_right _ List.mem_cons_self)) (hknown _))

theorem keeps_revoke (revokedBy : String) (hcalls : w.calls task = []) :
    (revoke serial revokedBy).Keeps Law stores task
      (.ofAccount (Inquiring stores task serial (Shown task serial revokedBy))) w := by
  apply keeps_lookup hcalls
  intro certificate later hlater hentered hsame
  have hknown := known_found task serial certificate
  apply Procedure.keeps_quiet steady_law rfl hsame (.going trivial hknown)
  intro now found hlog hfound _ hfoundLaw
  have hthere := hlater.certificates.stays hfoundLaw.certificates hlog hentered
  apply Procedure.keeps_table hfound (.going trivial hknown)
  · intro world chance hgrown hworld
    apply hworld.revoke chance task
    rw [hfoundLaw.certificates.stays hworld.certificates hgrown hthere]
    rfl
  · intro world last chance reply hworld hlast hreply _ hgrown _ hcalled
    exact keeps_revoked hworld hlast hgrown hreply hcalled

end Conduct

/-- Whoever revokes nothing keeps the law. -/
theorem keeps_of_asks {p : Procedure α} (hp : p.Asks Keeping) {stores : Stores} {task : Nat}
    {w : World} (hpast : ∀ event ∈ w.past task, Keeping event.effect) :
    p.Keeps Law stores task (fun past _ => ∀ event ∈ past, Keeping event.effect) w := by
  have honly : p.Only Keeping := hp.mono fun e he => he.elim keeping_of_not_asksWrite id
  exact honly.keeps (fun w hlaw chance e he => hlaw.keeping chance task he) hpast

section Length

theorem endsWithin_get (serial : SerialNumber) : (get serial).EndsWithin 1 := by
  apply (Procedure.endsWithin_query .certificates _).bind
  intro entry
  cases entry with
  | none => exact nofun
  | some certificate => trivial

/-- A status is answered after two calls. -/
theorem endsWithin_statusAt (serial : SerialNumber) (now : Instant) :
    (statusAt serial now).EndsWithin 2 := by
  apply (endsWithin_get serial).bind
  intro certificate reply
  cases reply with
  | ok revocation => trivial
  | error e => exact nofun

/-- A certificate is recorded after one call. -/
theorem endsWithin_record (issued : IssuedCertificate) : (record issued).EndsWithin 1 :=
  (Procedure.endsWithin_query _ _).bind fun _ => trivial

/-- A certificate is revoked after four effects. -/
theorem endsWithin_revoke (serial : SerialNumber) (revokedBy : String) :
    (revoke serial revokedBy).EndsWithin 4 := by
  apply (endsWithin_get serial).bind
  intro certificate now reply
  change (revoked ⟨serial, now, revokedBy⟩ reply).EndsWithin 1
  unfold revoked
  split
  · trivial
  · intro found
    rcases found with e | revocation?
    · exact nofun
    · cases revocation? with
      | none => exact nofun
      | some entry => trivial
  · exact nofun

end Length

end CertAuthority.Registry
