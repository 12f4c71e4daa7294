import CertAuthority.Proofs.Authority.SerialNumber
import CertAuthority.Proofs.Request.Heeding
import CertAuthority.Proofs.Service.Revocation

/-!
# Certificates are known by one serial number

Whatever bytes are drawn, every certificate that the service enters or hands out has one serial
number: it is entered under it, whoever presents it is known by it, and whatever an operator may
type for it is read as it.  So a revocation that is typed finds the certificate, and whoever
presents that certificate from then on is refused.
-/

namespace CertAuthority.Service

open Registry (Inquiring Keeping Shown)

/-- That as many bytes were drawn as were asked for. -/
def Drawn : (e : Effect) → e.Reply → Prop
  | .random count, bytes => bytes.length = count
  | _, _ => True

/-- That a certificate has one serial number on all paths, and is entered under it. -/
def KeyedUnder (key : String) (issued : IssuedCertificate) : Prop :=
  key = issued.serialNumber.text ∧ issued.Keyed

/-- An effect that enters no other certificates. -/
abbrev Keying (e : Effect) : Prop :=
  e.Enters .certificates KeyedUnder

/-- What an errand gives: a certificate that it gives has one serial number on all paths. -/
def Yields : (errand : Errand) → errand.Result → Prop
  | .renew _ _, issued => IssuedCertificate.Keyed issued
  | .approve _ _ _ _, issued => IssuedCertificate.Keyed issued
  | _, _ => True

section Errands

variable (s : Service)

theorem keying_of_not_asksWrite {e : Effect} (he : e.asksWrite = false) : Keying e :=
  Effect.enters_of_not_writesTo (Effect.not_writesTo_of_not_asksWrite he _) _

theorem keying_create {issued : IssuedCertificate} (hkeyed : issued.Keyed) :
    Keying (.table .certificates (.create issued.serialNumber.text issued)) :=
  fun _ => ⟨_, _, ⟨rfl, hkeyed⟩, rfl⟩

/-- A certificate that is signed with as many bytes as were asked for has one serial number. -/
theorem sign_heeds_drawn (csrPem : String) (days : Nat) (issuer : CertificateIssuer) :
    (s.authority.sign csrPem days issuer).Heeds Drawn Keying IssuedCertificate.Keyed := by
  refine ⟨keying_of_not_asksWrite rfl, fun now _ => ⟨keying_of_not_asksWrite rfl,
    fun serial hserial => ⟨keying_of_not_asksWrite rfl, fun nonce _ => ?_⟩⟩⟩
  change (Authority.ofTask _).Heeds _ _ _
  cases hissued : Issuance.sign s.authority csrPem days issuer now
    ⟨SerialNumber.bytesOfRandom serial, Bytes.toNat nonce⟩ with
  | ok issued => exact Issuance.keyed_of_sign hserial hissued
  | error f => cases f <;> trivial

theorem renew_heeds_drawn (csrPem : String) (caller : CallerIdentity) :
    (s.renew csrPem caller).Heeds Drawn Keying IssuedCertificate.Keyed := by
  have hasks : (Renewal.checkRevocation caller).Asks fun _ => False := checkRevocation_asks caller
  have hcheck : (Renewal.checkRevocation caller).Heeds Drawn Keying fun _ => True :=
    hasks.heeds fun e he => he.elim keying_of_not_asksWrite False.elim
  unfold renew Renewal.renew
  split
  · trivial
  · split
    · trivial
    · exact hcheck.bind fun _ _ => (sign_heeds_drawn s _ _ _).bind fun issued hkeyed =>
        (Ledger.heeds_record (keying_create hkeyed)).bind fun _ _ => hkeyed

theorem approve_heeds_drawn (id : RequestId) (approver : String) (days : Option Nat)
    (comment : String) :
    (s.approve id approver days comment).Heeds Drawn Keying IssuedCertificate.Keyed := by
  refine @Ledger.heeds_approve Drawn Keying (fun _ => True) _ _ _ _
    (fun e => keying_of_not_asksWrite) (fun _ => trivial)
    (fun csrPem => sign_heeds_drawn s csrPem _ _) ?_ fun _ => keying_create
  exact fun _ _ _ _ _ _ _ _ _ _ => Effect.enters_of_not_writesTo rfl _

/-- No errand enters a certificate but under its one serial number. -/
theorem perform_heeds_drawn (errand : Errand) :
    (s.perform errand).Heeds Drawn Keying (Yields errand) := by
  have hother (hrenew : ∀ csrPem caller, errand ≠ .renew csrPem caller)
      (happrove : ∀ id approver days comment, errand ≠ .approve id approver days comment) :
      (s.perform errand).Heeds Drawn Keying fun _ => True := by
    refine (perform_writes s errand).heeds fun e he => he.elim keying_of_not_asksWrite ?_
    intro hwrites
    cases hwrites with
    | renewed hsigned => exact (hrenew _ _ rfl).elim
    | granted hcheck hsigned => exact (happrove _ _ _ _ rfl).elim
    | _ => exact Effect.enters_of_not_writesTo rfl _
  cases errand with
  | renew csrPem caller => exact renew_heeds_drawn s csrPem caller
  | approve id approver days comment => exact approve_heeds_drawn s id approver days comment
  | _ => exact hother nofun nofun

/-- Chance draws as many bytes as are asked for. -/
theorem drawn_reply (w : World) (stores : Stores) (chance : Chance) (e : Effect) :
    Drawn e (w.reply stores chance e) := by
  cases e with
  | random count =>
      change ((List.range count).map chance.byte).length = count
      rw [List.length_map, List.length_range]
  | _ => trivial

theorem drawn_keeps (stores : Stores) :
    s.desk.Keeps (fun w => ∀ event ∈ w.log, Keying event.effect) stores
      fun errand _ _ rest => rest.Heeds Drawn Keying (Yields errand) :=
  Interface.keeps_of_heeds (perform_heeds_drawn s) fun w chance e _ _ =>
    drawn_reply w stores chance e

/-- What a revocation tells, unless nobody asks for it: whether its certificate is known. -/
structure Telling (stores : Stores) (task : Nat) (serial : SerialNumber) (revokedBy : String)
    (calls : List Event) (rest : Procedure Revocation) : Prop where
  finished : rest ≠ .fail .unfinished
  inquiring : Text.isAllBlank revokedBy = false →
    Inquiring stores task serial (Shown task serial revokedBy) calls rest

theorem keeps_telling {stores : Stores} {task : Nat} {w : World} (serial : SerialNumber)
    (revokedBy : String) (hcalls : w.calls task = []) :
    (s.revoke serial revokedBy).Keeps Registry.Law stores task
      (.ofAccount (Telling stores task serial revokedBy)) w := by
  unfold revoke
  split
  · next hblank =>
      refine Procedure.keeps_fail _ rfl ⟨nofun, fun hrevoker => ?_⟩
      rw [hblank] at hrevoker
      cases hrevoker
  · apply (Registry.keeps_revoke revokedBy hcalls).mono
    intro past rest hinquiring
    refine ⟨?_, fun _ => hinquiring⟩
    rintro rfl
    exact Inquiring.finished hinquiring

/-- What each errand promises: revocations tell of their certificate. -/
def tellingPromise (stores : Stores) : s.desk.Promises
  | .revoke serial revokedBy, task => .ofAccount (Telling stores task serial revokedBy)
  | _, _ => fun past _ => ∀ event ∈ past, Keeping event.effect

theorem telling_keeps (stores : Stores) :
    s.desk.Keeps Registry.Law stores (s.tellingPromise stores) where
  empty := Registry.Law.empty
  start := by
    intro errand task w _ _ hpast
    cases errand with
    | revoke serial revokedBy =>
        exact keeps_telling s serial revokedBy (by rw [World.calls, hpast]; rfl)
    | _ => exact keeps_register rfl (by rw [hpast]; exact List.forall_mem_nil _)
  again := by
    intro errand task w _ _ hpromise
    cases errand with
    | revoke serial revokedBy => exact absurd rfl hpromise.finished
    | _ => exact keeps_register rfl hpromise

theorem endsWithin_revoke (serial : SerialNumber) (revokedBy : String) :
    (s.revoke serial revokedBy).EndsWithin 4 := by
  unfold revoke
  split
  · exact nofun
  · exact Registry.endsWithin_revoke serial revokedBy

end Errands

section Run

variable {s : Service} {stores : Stores} {moves : List (Move s.desk)}

/-- What stands in the register has one serial number, and stands under it. -/
theorem keyed_of_find {key : String} {entry : Versioned IssuedCertificate}
    (hfind : (Office.run stores moves).world.find? .certificates key = some entry) :
    KeyedUnder key entry.value := by
  have habides := Office.abides_run (drawn_keeps s stores) moves
  exact (habides.reachable.written hfind).of_enters habides.lawful

/-- So has whatever an errand has given. -/
theorem yields_of_ended {errand : Errand} {i : Nat} {result : errand.Result}
    (hended : (Office.run stores moves).Ended i errand (.ok result)) : Yields errand result := by
  obtain ⟨rest, htask, houtcome⟩ := hended
  have hheeds := ((Office.abides_run (drawn_keeps s stores) moves).tasks i _ _ htask).promised
  obtain rfl := Procedure.eq_done_of_outcome? houtcome
  exact hheeds

/-- Where stores do not fail, whoever revokes a certificate that is entered is told of a revocation
after four moves of its own. -/
theorem revoked_of_entered {serial : SerialNumber} {entry : Versioned IssuedCertificate}
    (hentry : (Office.run .reliable moves).world.find? .certificates serial.text = some entry)
    {revokedBy : String} (hrevoker : Text.isAllBlank revokedBy = false)
    {more further : List (Move s.desk)} {i : Nat}
    (hlater : (Office.run .reliable moves).tasks.length ≤ i) {rest : Procedure Revocation}
    (htask : (Office.run .reliable (moves ++ more)).tasks[i]? =
      some ⟨.revoke serial revokedBy, rest⟩)
    (hcount : 4 ≤ further.countP (Move.isBy i)) :
    ∃ revocation, (Office.run .reliable (moves ++ (more ++ further))).Ended i
      (.revoke serial revokedBy) (.ok revocation) := by
  obtain ⟨outcome, hended⟩ :=
    Office.ended_run (endsWithin_revoke s serial revokedBy) htask further hcount
  rw [List.append_assoc] at hended
  obtain ⟨last, hlast, houtcome⟩ := hended
  have hpromise := ((Office.abides_run (telling_keeps s .reliable)
    (moves ++ (more ++ further))).tasks i _ _ hlast).promised
  rcases (hpromise.inquiring hrevoker).outcome_cases houtcome with ⟨revocation, rfl⟩ | rfl
  · exact ⟨revocation, last, hlast, houtcome⟩
  · exact absurd ⟨last, hlast, houtcome⟩ (known_of_entry hentry hlater rfl serial.text)

/-- How certificates are known, after any moves. -/
structure KnownBySerial (s : Service) (stores : Stores) (moves : List (Move s.desk)) : Prop where
  /-- What is read as a serial number, and as which. -/
  read : ∀ input n, SerialNumber.parse input = .ok n ↔
    SerialNumber.IsWritten n.text.toList ∧ SerialNumber.Typed input.toList n.text.toList
  /-- Whatever may be typed for a byte string is read as its written form. -/
  rendered : ∀ bytes, bytes ≠ [] → ∀ input,
    SerialNumber.Typed input.toList (SerialNumber.ofBytes bytes).text.toList →
      SerialNumber.parse input = .ok (SerialNumber.ofBytes bytes)
  /-- What is read is read again as itself. -/
  reread : ∀ input n, SerialNumber.parse input = .ok n → SerialNumber.parse n.text = .ok n
  /-- A certificate that is signed with any bytes that may be drawn. -/
  signed : ∀ csrPem days issuer now random nonce issued, random.length = SerialNumber.size →
    Issuance.sign s.authority csrPem days issuer now ⟨SerialNumber.bytesOfRandom random, nonce⟩ =
      .ok issued →
        issued.serialNumber = .ofBytes (SerialNumber.bytesOfRandom random) ∧ issued.Keyed
  /-- A certificate that is entered. -/
  entered : ∀ key entry, (Office.run stores moves).world.find? .certificates key = some entry →
    key = entry.value.serialNumber.text ∧ entry.value.Keyed
  /-- A certificate that is handed out. -/
  approved : ∀ i id approver days comment issued,
    (Office.run stores moves).Ended i (.approve id approver days comment) (.ok issued) →
      IssuedCertificate.Keyed issued
  renewed : ∀ i csrPem caller issued,
    (Office.run stores moves).Ended i (.renew csrPem caller) (.ok issued) →
      IssuedCertificate.Keyed issued
  /-- Whoever revokes a certificate that is entered, by whatever may be typed for its serial number,
  has revoked it after four moves, where stores do not fail. -/
  hit : stores = .reliable → ∀ key entry,
    (Office.run stores moves).world.find? .certificates key = some entry →
      ∀ input, SerialNumber.Typed input.toList key.toList →
        ∃ serial, SerialNumber.parse input = .ok serial ∧
          ∀ revokedBy, Text.isAllBlank revokedBy = false → ∀ (more further : List (Move s.desk)) i
            rest, (Office.run stores moves).tasks.length ≤ i →
              (Office.run stores (moves ++ more)).tasks[i]? =
                  some ⟨.revoke serial revokedBy, rest⟩ →
                4 ≤ further.countP (Move.isBy i) → ∃ revocation,
                  (Office.run stores (moves ++ (more ++ further))).Ended i
                    (.revoke serial revokedBy) (.ok revocation)
  /-- Whoever presents it from then on is refused. -/
  barred : ∀ key entry, (Office.run stores moves).world.find? .certificates key = some entry →
    ∀ input serial, SerialNumber.Typed input.toList key.toList →
      SerialNumber.parse input = .ok serial → ∀ j revokedBy revocation,
        (Office.run stores moves).Ended j (.revoke serial revokedBy) (.ok revocation) →
          (Office.run stores moves).world.find? .revocations key = some (.fresh revocation) ∧
            ∀ authorityDer now caller, CallerIdentity.ofClientCertificate
                entry.value.certificatePem authorityDer now = .ok caller →
              ∀ (more : List (Move s.desk)) i csrPem issued,
                (Office.run stores moves).tasks.length ≤ i →
                  ¬ (Office.run stores (moves ++ more)).Ended i (.renew csrPem caller) (.ok issued)

/-- All paths name a certificate by one serial number, so that a revocation that is typed hits the
certificate that is presented. -/
theorem known_by_serial (s : Service) (stores : Stores) (moves : List (Move s.desk)) :
    KnownBySerial s stores moves where
  read input n := SerialNumber.parse_eq_ok_iff
  rendered bytes hbytes input htyped := SerialNumber.parse_of_typed hbytes htyped
  reread input n hparsed := SerialNumber.parse_text hparsed
  signed := by
    intro csrPem days issuer now random nonce issued hrandom hsigned
    exact ⟨Issuance.serialNumber_of_sign hsigned, Issuance.keyed_of_sign hrandom hsigned⟩
  entered key entry hfind := keyed_of_find hfind
  approved := by
    intro i id approver days comment issued hended
    exact yields_of_ended hended
  renewed := by
    intro i csrPem caller issued hended
    exact yields_of_ended hended
  hit := by
    rintro rfl key entry hfind input htyped
    obtain ⟨rfl, hkeyed⟩ := keyed_of_find hfind
    refine ⟨_, (hkeyed.typed input).mpr htyped, ?_⟩
    intro revokedBy hrevoker more further i rest hlater htask hcount
    exact revoked_of_entered hfind hrevoker hlater htask hcount
  barred := by
    intro key entry hfind input serial htyped hparsed j revokedBy revocation hended
    obtain ⟨rfl, hkeyed⟩ := keyed_of_find hfind
    cases hparsed.symm.trans ((hkeyed.typed input).mpr htyped)
    have hrevoked := find_of_revoked hended
    refine ⟨hrevoked, ?_⟩
    intro authorityDer now caller hcaller more i csrPem issued hlater
    exact not_renewed_of_revoked hrevoked hlater (hkeyed.presented _ _ _ hcaller) issued

end Run

end CertAuthority.Service
