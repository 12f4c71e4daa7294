import CertAuthority.Proofs.Certificate.Permanence
import CertAuthority.Proofs.Service.Delivery

/-!
# Revocations among all errands

The register keeps its law whatever is asked of the service: only a revocation enters revocations,
after it has found the certificate.  So what a revocation has shown stands, and whoever presents
the certificate from then on is not served.
-/

namespace CertAuthority.Service

open Registry (Keeping Shown keeping_record)

/-- What a revocation tells: the record that it returns is the one that it has entered or read. -/
structure Revoking (task : Nat) (serial : SerialNumber) (revokedBy : String) (calls : List Event)
    (rest : Procedure Revocation) : Prop where
  finished : rest ≠ .fail .unfinished
  shown : ∀ revocation, rest = .done revocation → Shown task serial revokedBy calls revocation

/-- Whether an errand revokes a certificate. -/
def Errand.isRevocation : Errand → Bool
  | .revoke _ _ => true
  | _ => false

section Conduct

variable {s : Service} {stores : Stores} {task : Nat} {w : World}

theorem Writes.keeping {errand : Errand} {e : Effect} (hwrites : s.Writes errand e)
    (herrand : errand.isRevocation = false) : Keeping e := by
  cases hwrites with
  | renewed hsigned => exact keeping_record _
  | granted hcheck hsigned => exact keeping_record _
  | revoked now => cases herrand
  | _ => exact ⟨Effect.enters_of_not_writesTo rfl _, rfl⟩

/-- What each errand promises about the register. -/
def registerPromise (s : Service) : s.desk.Promises
  | .revoke serial revokedBy, task => .ofAccount (Revoking task serial revokedBy)
  | _, _ => fun past _ => ∀ event ∈ past, Keeping event.effect

theorem keeps_register {errand : Errand} (herrand : errand.isRevocation = false)
    (hpast : ∀ event ∈ w.past task, Keeping event.effect) :
    (s.desk.procedure errand).Keeps Registry.Law stores task
      (fun past _ => ∀ event ∈ past, Keeping event.effect) w := by
  have hasks : (s.perform errand).Asks Keeping := (perform_writes s errand).mono
    fun e he hasks => (he hasks).keeping herrand
  exact Registry.keeps_of_asks hasks hpast

/-- A revocation that nobody asks for is refused at once; any other one is looked up. -/
theorem keeps_revoking (s : Service) (serial : SerialNumber) (revokedBy : String)
    (hcalls : w.calls task = []) :
    (s.revoke serial revokedBy).Keeps Registry.Law stores task
      (.ofAccount (Revoking task serial revokedBy)) w := by
  unfold revoke
  split
  · exact Procedure.keeps_fail _ rfl ⟨nofun, nofun⟩
  · apply (Registry.keeps_revoke revokedBy hcalls).mono
    intro past rest hinquiring
    constructor
    · rintro rfl
      exact Registry.Inquiring.finished hinquiring
    · rintro revocation rfl
      exact Registry.Inquiring.completed_of_done hinquiring

/-- Every errand keeps the law of the register and its promise. -/
theorem register_keeps (s : Service) (stores : Stores) :
    s.desk.Keeps Registry.Law stores s.registerPromise where
  empty := Registry.Law.empty
  start := by
    intro errand task w _ _ hpast
    cases errand with
    | revoke serial revokedBy =>
        exact keeps_revoking s serial revokedBy (by rw [World.calls, hpast]; rfl)
    | _ => exact keeps_register rfl (by rw [hpast]; exact List.forall_mem_nil _)
  again := by
    intro errand task w _ _ hpromise
    cases errand with
    | revoke serial revokedBy => exact absurd rfl hpromise.finished
    | _ => exact keeps_register rfl hpromise

end Conduct

section Run

variable {s : Service} {stores : Stores} {moves : List (Move s.desk)} {serial : SerialNumber}

/-- What a revocation has shown is entered. -/
theorem find_of_revoked {j : Nat} {revokedBy : String} {revocation : Revocation}
    (hended : (Office.run stores moves).Ended j (.revoke serial revokedBy) (.ok revocation)) :
    (Office.run stores moves).world.find? .revocations serial.text = some (.fresh revocation) := by
  obtain ⟨rest, htask, houtcome⟩ := hended
  have habides := Office.abides_run (register_keeps s stores) moves
  have hrevoking : Revoking j serial revokedBy ((Office.run stores moves).world.calls j) rest :=
    (habides.tasks j (.revoke serial revokedBy) rest htask).promised
  have hshown := hrevoking.shown revocation (Procedure.eq_done_of_outcome? houtcome)
  exact Registry.find_of_shown habides.lawful habides.reachable hshown

theorem revocation_stays {entry : Versioned Revocation} {key : String}
    (hfind : (Office.run stores moves).world.find? .revocations key = some entry)
    (more : List (Move s.desk)) :
    (Office.run stores (moves ++ more)).world.find? .revocations key = some entry := by
  have hlater := (Office.abides_run (register_keeps s stores) (moves ++ more)).lawful.revocations
  rw [Office.run_append] at hlater ⊢
  exact (Office.abides_run (register_keeps s stores) moves).lawful.revocations.stays hlater
    (Office.log_prefix_after stores _ more) hfind

/-- Whoever comes with a certificate that is revoked is not served. -/
theorem not_renewed_of_revoked {entry : Versioned Revocation}
    (hfind : (Office.run stores moves).world.find? .revocations serial.text = some entry)
    {more : List (Move s.desk)} {i : Nat} (hlater : (Office.run stores moves).tasks.length ≤ i)
    {csrPem : String} {caller : CallerIdentity} (hserial : caller.serialNumber = some serial)
    (issued : IssuedCertificate) :
    ¬ (Office.run stores (moves ++ more)).Ended i (.renew csrPem caller) (.ok issued) := by
  rintro ⟨rest, htask, houtcome⟩
  have hrenewing : Renewing s i csrPem caller ((Office.run stores (moves ++ more)).world.calls i)
      rest := ((abides s stores (moves ++ more)).tasks i (.renew csrPem caller) rest htask).promised
  have hread := World.mem_log_of_mem_calls
    (hrenewing.checked issued (Procedure.eq_done_of_outcome? houtcome) serial hserial)
  rw [Office.run_append] at hread
  -- When it was read the revocation was there, so that the table did not answer that there is none.
  obtain ⟨before, -, hnone, -⟩ := Office.read_later (abides s stores moves).numbered hlater hread
  rw [← Office.run_append, revocation_stays hfind before] at hnone
  cases hnone

end Run

end CertAuthority.Service
