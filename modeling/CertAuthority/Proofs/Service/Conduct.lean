import CertAuthority.Proofs.Certificate.Conduct
import CertAuthority.Proofs.Service.Writes

/-!
# What each errand promises

Approvals and rejections give the account of their decision, renewals tell what they have issued
and for whom, and whoever asks about a serial number calls it unknown only after the table of
certificates had nothing under it.
-/

namespace CertAuthority.Service

open Ledger (Law Clerical Deciding Approving Rejecting steady_law)

/-- The answer that there is no certificate under a serial number. -/
def missing (task : Nat) (serial : SerialNumber) : Event :=
  ⟨task, .table .certificates (.get serial.text), .ok none⟩

/-- Calls a serial number unknown only after the table said so. -/
def Asking {α : Type} (task : Nat) (serial : SerialNumber) : Account α := fun calls rest =>
  ∀ text, rest = .fail (.error (.unknownSerial text)) → missing task serial ∈ calls

/-- What a renewal tells: it leaves the requests alone, and what it has issued is for the caller,
as its request was validated, and was entered. -/
structure Renewing (s : Service) (task : Nat) (csrPem : String) (caller : CallerIdentity)
    (calls : List Event) (rest : Procedure IssuedCertificate) : Prop where
  aside : ∀ event ∈ calls, event.effect.writesTo .requests = false
  finished : rest ≠ .fail .unfinished
  issued : ∀ issued, rest = .done issued →
    (∃ csr, Csr.validate csrPem = .ok csr ∧ caller.commonName = csr.identity.commonName) ∧
    s.Signed s.issuance.renewalValidityDays .autoRenewal csrPem issued ∧
    .creation task .certificates issued.serialNumber.text issued ∈ calls
  /-- The certificate that the caller presented was not revoked when that was read. -/
  checked : ∀ issued, rest = .done issued → ∀ serial, caller.serialNumber = some serial →
    Registry.reading task serial (.ok none) ∈ calls

section Asking

variable {α : Type} {admits : Ledger.Submission → Prop} {stores : Stores} {task : Nat} {w : World}
variable {serial : SerialNumber} {calls : List Event}

theorem asking_call (e : Effect) (next : e.Reply → Procedure α) :
    Asking task serial calls (.call e next) := by
  rintro text ⟨⟩

theorem asking_done (a : α) : Asking task serial calls (.done a) := by
  rintro text ⟨⟩

/-- A table never answers that a serial number is unknown. -/
theorem asking_ofTable {e : CaError} (he : e.isOfTable) :
    Asking task serial calls (.fail (.error e) : Procedure α) := by
  rintro text ⟨⟩
  cases he

theorem keeps_getCertificate {f : IssuedCertificate → Procedure α}
    (hf : ∀ certificate (later : World),
      (f certificate).Keeps (Law admits) stores task (.ofAccount (Asking task serial)) later) :
    ((Registry.get serial).bind f).Keeps (Law admits) stores task
      (.ofAccount (Asking task serial)) w := by
  apply Procedure.keeps_get steady_law rfl (asking_call _ _)
  · intro e later he _ hsame
    exact Procedure.keeps_fail _ hsame (asking_ofTable he)
  · intro found later _ _ _ _ _ hsame
    cases hfind : found.find? .certificates serial.text with
    | none =>
        rw [hfind] at hsame
        exact Procedure.keeps_fail _ hsame fun _ _ =>
          List.mem_append_right _ List.mem_cons_self
    | some entry => exact hf entry.value later

theorem keeps_revocation {f : Option Revocation → Procedure α}
    (hf : ∀ found (later : World),
      (f found).Keeps (Law admits) stores task (.ofAccount (Asking task serial)) later) :
    ((Registry.revocation serial).bind f).Keeps (Law admits) stores task
      (.ofAccount (Asking task serial)) w := by
  apply Procedure.keeps_get steady_law rfl (asking_call _ _)
  · intro e later he _ hsame
    exact Procedure.keeps_fail _ hsame (asking_ofTable he)
  · intro found later _ _ _ _ _ _
    exact hf _ later

theorem keeps_isRevoked {f : Bool → Procedure α}
    (hf : ∀ revoked (later : World),
      (f revoked).Keeps (Law admits) stores task (.ofAccount (Asking task serial)) later) :
    ((Registry.isRevoked serial).bind f).Keeps (Law admits) stores task
      (.ofAccount (Asking task serial)) w := by
  apply Procedure.keeps_get steady_law rfl (asking_call _ _)
  · intro e later he _ hsame
    exact Procedure.keeps_fail _ hsame (asking_ofTable he)
  · intro found later _ _ _ _ _ _
    exact hf _ later

theorem keeps_get (serial : SerialNumber) (w : World) :
    (Registry.get serial).Keeps (Law admits) stores task (.ofAccount (Asking task serial)) w := by
  rw [← Procedure.bind_done_right (Registry.get serial)]
  apply keeps_getCertificate
  intro certificate later
  exact Procedure.keeps_done _ rfl (asking_done _)

theorem keeps_status (serial : SerialNumber) (w : World) :
    (Registry.status serial).Keeps (Law admits) stores task
      (.ofAccount (Asking task serial)) w := by
  apply Procedure.keeps_quiet steady_law rfl rfl (asking_call _ _)
  intro now later _ _ _ _
  apply keeps_getCertificate
  intro certificate found
  apply keeps_isRevoked
  intro revoked last
  exact Procedure.keeps_done _ rfl (asking_done _)

theorem keeps_revoked (now : Instant) (revokedBy : String) {reply : Except CaError Nat}
    (hreply : ∀ e, reply = .error e → e.isOfTable) :
    (Registry.revoked ⟨serial, now, revokedBy⟩ reply).Keeps (Law admits) stores task
      (.ofAccount (Asking task serial)) w := by
  unfold Registry.revoked
  split
  · exact Procedure.keeps_done _ rfl (asking_done _)
  · apply keeps_revocation
    intro found later
    cases found with
    | none => exact Procedure.keeps_fail _ rfl (asking_ofTable rfl)
    | some revocation => exact Procedure.keeps_done _ rfl (asking_done _)
  · next e _ => exact Procedure.keeps_fail _ rfl (asking_ofTable (hreply e rfl))

theorem keeps_revoke (s : Service) (serial : SerialNumber) (revokedBy : String) (w : World) :
    (s.revoke serial revokedBy).Keeps (Law admits) stores task
      (.ofAccount (Asking task serial)) w := by
  unfold revoke
  split
  · exact Procedure.keeps_fail _ rfl (by rintro text ⟨⟩)
  apply keeps_getCertificate
  intro certificate found
  apply Procedure.keeps_quiet steady_law rfl rfl (asking_call _ _)
  intro now later _ _ _ _
  apply Procedure.keeps_table rfl (asking_call _ _)
  · intro world chance _ hlaw
    exact hlaw.after_other chance task rfl rfl
  · intro world last chance reply _ _ hreply _ _ _ _
    apply keeps_revoked now revokedBy
    rintro e rfl
    rcases world.create_cases stores chance task .revocations serial.text ⟨serial, now, revokedBy⟩
      with ⟨error, htable, herror, -⟩ | ⟨-, hok, -⟩
    · rw [herror] at hreply
      cases hreply
      exact htable
    · rw [hok] at hreply
      cases hreply

end Asking

section Renewing

variable {admits : Ledger.Submission → Prop} {stores : Stores} {task : Nat} {w : World}
variable {s : Service} {csrPem : String} {caller : CallerIdentity} {calls : List Event}

theorem renewing_fruitless {rest : Procedure IssuedCertificate}
    (hcalls : ∀ event ∈ calls, event.effect.writesTo .requests = false) (hrest : rest.Fruitless) :
    Renewing s task csrPem caller calls rest := by
  refine ⟨hcalls, ?_, ?_, ?_⟩
  · rintro rfl
    exact hrest rfl
  · rintro issued rfl
    exact hrest.elim
  · rintro issued rfl
    exact hrest.elim

theorem other_append (hother : ∀ event ∈ calls, event.effect.writesTo .requests = false)
    (event : Event) (hevent : event.effect.writesTo .requests = false) :
    ∀ found ∈ calls ++ [event], found.effect.writesTo .requests = false := by
  intro found hfound
  rcases List.mem_append.mp hfound with hold | hnew
  · exact hother found hold
  · rwa [List.mem_singleton.mp hnew]

/-- Enters the certificate that was issued for the caller. -/
theorem keeps_renewed {issued : IssuedCertificate} {csr : ValidatedCsr}
    (hvalid : Csr.validate csrPem = .ok csr) (hcaller : caller.commonName = csr.identity.commonName)
    (hissued : s.Signed s.issuance.renewalValidityDays .autoRenewal csrPem issued)
    (hcalls : w.calls task = calls)
    (hother : ∀ event ∈ calls, event.effect.writesTo .requests = false)
    (hchecked : ∀ serial, caller.serialNumber = some serial →
      Registry.reading task serial (.ok none) ∈ calls) :
    ((Registry.record issued).bind fun _ => Procedure.done issued).Keeps (Law admits) stores task
      (.ofAccount (Renewing s task csrPem caller)) w := by
  apply Procedure.keeps_table hcalls (renewing_fruitless hother trivial)
  · intro found chance _ hlaw
    exact hlaw.enter chance task issued
  · intro found later chance reply _ _ hreply _ _ _ hsame
    have hall := other_append hother ⟨task, .table .certificates
      (.create issued.serialNumber.text issued), reply⟩ rfl
    rcases found.create_cases stores chance task .certificates issued.serialNumber.text issued with
      ⟨e, -, herror, -⟩ | ⟨-, hok, -⟩
    · rw [herror] at hreply
      subst hreply
      exact Procedure.keeps_fail _ hsame (renewing_fruitless hall nofun)
    · rw [hok] at hreply
      subst hreply
      refine Procedure.keeps_done _ hsame ⟨hall, nofun, ?_, ?_⟩
      · intro other hother
        cases hother
        exact ⟨⟨csr, hvalid, hcaller⟩, hissued, List.mem_append_right _ List.mem_cons_self⟩
      · intro other _ serial hserial
        exact List.mem_append_left _ (hchecked serial hserial)

/-- Signs for a caller whose certificate is not revoked. -/
theorem keeps_signed {csr : ValidatedCsr} (hvalid : Csr.validate csrPem = .ok csr)
    (hcaller : caller.commonName = csr.identity.commonName) (hreachable : w.Reachable stores)
    (hlaw : Law admits w) (hcalls : w.calls task = calls)
    (hother : ∀ event ∈ calls, event.effect.writesTo .requests = false)
    (hchecked : ∀ serial, caller.serialNumber = some serial →
      Registry.reading task serial (.ok none) ∈ calls) :
    ((s.authority.sign csr.pem s.issuance.renewalValidityDays .autoRenewal).bind fun issued =>
      (Registry.record issued).bind fun _ => Procedure.done issued).Keeps (Law admits) stores task
        (.ofAccount (Renewing s task csrPem caller)) w := by
  apply (quiet_sign s _ _ _).keeps_bind steady_law hreachable hlaw hcalls
    (fun rest hrest => renewing_fruitless hother hrest)
  intro issued later hissued _ hsame _ _
  rw [validate_pem hvalid] at hissued
  exact keeps_renewed hvalid hcaller hissued hsame hother hchecked

theorem keeps_renew (s : Service) (csrPem : String) (caller : CallerIdentity)
    (hreachable : w.Reachable stores) (hlaw : Law admits w) (hcalls : w.calls task = []) :
    (s.renew csrPem caller).Keeps (Law admits) stores task
      (.ofAccount (Renewing s task csrPem caller)) w := by
  unfold renew Renewal.renew
  split
  · exact Procedure.keeps_fail _ hcalls (renewing_fruitless (List.forall_mem_nil _) nofun)
  · next csr hvalid =>
      split
      · exact Procedure.keeps_fail _ hcalls (renewing_fruitless (List.forall_mem_nil _) nofun)
      · next hcaller =>
          have hsame : caller.commonName = csr.identity.commonName := not_not.mp hcaller
          change ((Renewal.checkRevocation caller).bind fun _ => _).Keeps _ _ _ _ _
          unfold Renewal.checkRevocation
          cases hserial : caller.serialNumber with
          | none =>
              exact keeps_signed hvalid hsame hreachable hlaw hcalls (List.forall_mem_nil _)
                (by simp [hserial])
          | some serial =>
              have hasked (reply : Except CaError (Option (Versioned Revocation))) :=
                other_append (List.forall_mem_nil _)
                  ⟨task, .table .revocations (.get serial.text), reply⟩ rfl
              apply Procedure.keeps_get steady_law hcalls
                (renewing_fruitless (List.forall_mem_nil _) trivial)
              · intro e later _ _ hcalled
                exact Procedure.keeps_fail _ hcalled (renewing_fruitless (hasked _) nofun)
              · intro found later _ hlater _ _ hlaterReachable hcalled
                cases hfind : found.find? .revocations serial.text with
                | none =>
                    rw [hfind] at hcalled
                    refine keeps_signed hvalid hsame hlaterReachable hlater hcalled (hasked _) ?_
                    intro other hother
                    cases hserial.symm.trans hother
                    exact List.mem_cons_self
                | some entry =>
                    rw [hfind] at hcalled
                    exact Procedure.keeps_fail _ hcalled (renewing_fruitless (hasked _) nofun)

end Renewing

/-- The calls of whoever writes nothing but requests, to enter them. -/
def ClericalCalls {α : Type} : Account α := fun calls _ =>
  ∀ event ∈ calls, Clerical Admitted event.effect

/-- What each errand promises. -/
def promise (s : Service) : s.desk.Promises
  | .renew csrPem caller, task => .ofAccount (Renewing s task csrPem caller)
  | .approve id approver days comment, task =>
    .ofAccount (Deciding task id (Approving task (s.approval id approver days comment)
      (s.Signed (s.approval id approver days comment).days (.request id))))
  | .reject id rejecter reason, task =>
    .ofAccount (Deciding task id (Rejecting ⟨id, rejecter, reason⟩))
  | .getCertificate serial, task => fun past rest =>
    Promise.ofAccount ClericalCalls past rest ∧ Promise.ofAccount (Asking task serial) past rest
  | .certificateStatus serial, task => fun past rest =>
    Promise.ofAccount ClericalCalls past rest ∧ Promise.ofAccount (Asking task serial) past rest
  | .revoke serial _, task => fun past rest =>
    Promise.ofAccount ClericalCalls past rest ∧ Promise.ofAccount (Asking task serial) past rest
  | _, _ => .ofAccount ClericalCalls

/-- A clerical errand keeps to clerical calls. -/
theorem keeps_of_isClerical {s : Service} {errand : Errand} {stores : Stores} {task : Nat}
    {w : World} (herrand : errand.isClerical)
    (hcalls : ∀ event ∈ w.calls task, Clerical Admitted event.effect) :
    (s.desk.procedure errand).Keeps (Law Admitted) stores task (.ofAccount ClericalCalls) w := by
  have hpast : ∀ event ∈ w.past task, Clerical Admitted event.effect := by
    intro event hevent
    cases hcall : event.effect.isCall with
    | true => exact hcalls event (World.mem_calls_iff.mpr ⟨hevent, hcall⟩)
    | false =>
        have hquiet := Effect.not_asksWrite_of_not_isCall hcall
        exact .inl ⟨Effect.not_writesTo_of_not_asksWrite hquiet _,
          Effect.not_writesTo_of_not_asksWrite hquiet _⟩
  have hlawful (w : World) (hlaw : Law Admitted w) (chance : Chance) (e : Effect)
      (he : Clerical Admitted e) : Law Admitted (w.after stores chance task e) :=
    hlaw.clerical chance task he
  apply ((perform_clerical errand herrand).keeps hlawful hpast).mono
  intro past rest hall event hevent
  exact hall event (List.mem_filter.mp hevent).1

/-- Every errand keeps the law and its promise. -/
theorem desk_keeps (s : Service) (stores : Stores) :
    s.desk.Keeps (Law Admitted) stores s.promise where
  empty := Ledger.law_empty
  start := by
    intro errand task w hreachable hlaw hpast
    have hcalls : w.calls task = [] := by rw [World.calls, hpast]; rfl
    have hclerical : errand.isClerical →
        (s.desk.procedure errand).Keeps (Law Admitted) stores task (.ofAccount ClericalCalls)
          w := by
      intro herrand
      apply keeps_of_isClerical herrand
      rw [hcalls]
      exact List.forall_mem_nil _
    cases errand with
    | renew csrPem caller => exact keeps_renew s csrPem caller hreachable hlaw hcalls
    | approve id approver days comment =>
        exact Ledger.keeps_approve s.issuance.maxValidityDays (s.approval id approver days comment)
          (fun csrPem => quiet_sign s _ _ csrPem) hcalls
    | reject id rejecter reason => exact Ledger.keeps_reject ⟨id, rejecter, reason⟩ hcalls
    | getCertificate serial => exact (hclerical rfl).and (keeps_get serial w)
    | certificateStatus serial => exact (hclerical rfl).and (keeps_status serial w)
    | revoke serial revokedBy => exact (hclerical rfl).and (keeps_revoke s serial revokedBy w)
    | _ => exact hclerical rfl
  again := by
    intro errand task w _ _ hpromise
    cases errand with
    | renew csrPem caller => exact absurd rfl hpromise.finished
    | approve id approver days comment =>
        exact absurd hpromise (Deciding.finished Approving.finished)
    | reject id rejecter reason => exact absurd hpromise (Deciding.finished Rejecting.finished)
    | getCertificate serial => exact (keeps_of_isClerical rfl hpromise.1).and (keeps_get serial w)
    | certificateStatus serial =>
        exact (keeps_of_isClerical rfl hpromise.1).and (keeps_status serial w)
    | revoke serial revokedBy =>
        exact (keeps_of_isClerical rfl hpromise.1).and (keeps_revoke s serial revokedBy w)
    | _ => exact keeps_of_isClerical rfl hpromise

end CertAuthority.Service
