import CertAuthority.Certificate.Registry
import CertAuthority.Proofs.Office.Origin

/-!
# What is written to the register

Certificates and revocations are entered under their serial numbers and stay, and only certificates
that are entered are revoked.
-/

namespace CertAuthority.Registry

open Effect (among_of_not_asksWrite among_of_writes)
open Procedure (asks_now asks_reading asks_query)

section Writes

variable {writes : Effect → Prop}

theorem record_asks {issued : IssuedCertificate}
    (hrecord : writes (.table .certificates (.create issued.serialNumber.text issued))) :
    (record issued).Asks writes :=
  (asks_query (among_of_writes hrecord)).bind fun _ => trivial

theorem get_asks (serial : SerialNumber) : (get serial).Asks writes :=
  (asks_reading rfl writes).bind fun entry => by cases entry <;> trivial

theorem revocation_asks (serial : SerialNumber) : (revocation serial).Asks writes :=
  (asks_reading rfl writes).bind fun _ => trivial

theorem isRevoked_asks (serial : SerialNumber) : (isRevoked serial).Asks writes :=
  (asks_reading rfl writes).bind fun _ => trivial

theorem status_asks (serial : SerialNumber) : (status serial).Asks writes :=
  (asks_now writes).bind fun _ => (get_asks serial).bind fun _ =>
    (isRevoked_asks serial).bind fun _ => trivial

theorem list_asks (filter : Option CertificateStatus) : (list filter).Asks writes :=
  (asks_now writes).bind fun _ => (asks_reading rfl writes).bind fun _ =>
    (asks_reading rfl writes).bind fun _ => trivial

theorem revoke_asks {serial : SerialNumber} {revokedBy : String}
    (hrevoke : ∀ now, writes
      (.table .revocations (.create serial.text ⟨serial, now, revokedBy⟩))) :
    (revoke serial revokedBy).Asks writes := by
  refine (get_asks serial).bind fun _ => (asks_now writes).bind fun now =>
    ⟨among_of_writes (hrevoke now), fun reply => ?_⟩
  change (revoked _ reply).Asks writes
  unfold revoked
  split
  · trivial
  · exact (revocation_asks _).bind fun found => by cases found <;> trivial
  · trivial

end Writes

/-- A certificate is entered under its own serial number. -/
def OwnCertificate (key : String) (issued : IssuedCertificate) : Prop :=
  issued.serialNumber.text = key

/-- So is a revocation. -/
def OwnRevocation (key : String) (revocation : Revocation) : Prop :=
  revocation.serialNumber.text = key

/-- The law of the register. -/
structure Law (w : World) : Prop where
  certificates : w.Ruled .certificates (WriteOnce OwnCertificate)
  revocations : w.Ruled .revocations (WriteOnce OwnRevocation)
  /-- Whatever is revoked is entered. -/
  covered : ∀ key, (w.find? .revocations key).isSome → (w.find? .certificates key).isSome

/-- An effect of whoever revokes nothing: certificates may be entered. -/
structure Keeping (e : Effect) : Prop where
  certificates : e.Enters .certificates OwnCertificate
  revocations : e.writesTo .revocations = false

theorem keeping_of_not_asksWrite {e : Effect} (he : e.asksWrite = false) : Keeping e where
  certificates := Effect.enters_of_not_writesTo (Effect.not_writesTo_of_not_asksWrite he _) _
  revocations := Effect.not_writesTo_of_not_asksWrite he _

theorem keeping_record (issued : IssuedCertificate) :
    Keeping (.table .certificates (.create issued.serialNumber.text issued)) where
  certificates := fun _ => ⟨_, _, rfl, rfl⟩
  revocations := rfl

namespace Law

variable {w : World} {stores : Stores}

theorem empty : Law .empty where
  certificates := fun _ => .absent
  revocations := fun _ => .absent
  covered := nofun

/-- A certificate that is entered is there for ever. -/
theorem entered_stays (hlaw : Law w) {later : World}
    (hlater : later.Ruled .certificates (WriteOnce OwnCertificate)) (hlog : w.log <+: later.log)
    {key : String} (hentered : (w.find? .certificates key).isSome) :
    (later.find? .certificates key).isSome := by
  obtain ⟨entry, hfind⟩ := Option.isSome_iff_exists.mp hentered
  rw [hlaw.certificates.stays hlater hlog hfind]
  rfl

theorem keeping (hlaw : Law w) (chance : Chance) (task : Nat) {e : Effect} (he : Keeping e) :
    Law (w.after stores chance task e) := by
  have hcertificates := hlaw.certificates.enter stores chance task he.certificates
  refine ⟨hcertificates, hlaw.revocations.after_other stores chance task he.revocations, ?_⟩
  intro key hrevoked
  rw [World.find?, World.tables_after_of_not_writesTo w stores chance task he.revocations]
    at hrevoked
  exact hlaw.entered_stays hcertificates (w.log_prefix_after stores chance task e)
    (hlaw.covered key hrevoked)

/-- A certificate that is entered is revoked. -/
theorem revoke (hlaw : Law w) (chance : Chance) (task : Nat) {serial : SerialNumber}
    (hentered : (w.find? .certificates serial.text).isSome) (now : Instant) (revokedBy : String) :
    Law (w.after stores chance task
      (.table .revocations (.create serial.text ⟨serial, now, revokedBy⟩))) := by
  have hcertificates : (w.after stores chance task (.table .revocations
      (.create serial.text ⟨serial, now, revokedBy⟩))).Ruled .certificates
        (WriteOnce OwnCertificate) :=
    hlaw.certificates.after_other stores chance task rfl
  refine ⟨hcertificates, hlaw.revocations.enter stores chance task
    fun _ => ⟨serial.text, ⟨serial, now, revokedBy⟩, rfl, rfl⟩, ?_⟩
  intro key hrevoked
  apply hlaw.entered_stays hcertificates (w.log_prefix_after stores chance task _)
  rcases w.create_cases stores chance task .revocations serial.text ⟨serial, now, revokedBy⟩ with
    ⟨e, -, -, htables⟩ | ⟨-, -, hfound⟩
  · rw [World.find?, htables] at hrevoked
    exact hlaw.covered key hrevoked
  · rw [hfound] at hrevoked
    split at hrevoked
    · next hkey =>
        rw [hkey]
        exact hentered
    · exact hlaw.covered key hrevoked

end Law

theorem steady_law : Steady Law :=
  fun _ _ chance task _ he hlaw => hlaw.keeping chance task (keeping_of_not_asksWrite he)

end CertAuthority.Registry
