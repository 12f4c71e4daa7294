import CertAuthority.Proofs.Authority.Acceptance
import CertAuthority.Proofs.Service.Revocation

/-!
# Who is granted a renewal

A renewal is granted if and only if the request is sound, is for the caller's own name, and the
certificate that the caller presents, if it presents one, is not revoked.  It then enters the
certificate that was signed for it, and nothing else.  A renewal that is refused gives the first
objection and leaves all tables alone.
-/

namespace CertAuthority

namespace World

theorem tables_after_of_not_asksWrite (w : World) (stores : Stores) (chance : Chance) (task : Nat)
    {e : Effect} (he : e.asksWrite = false) : (w.after stores chance task e).tables = w.tables :=
  funext fun name => tables_after_of_not_writesTo w stores chance task
    (Effect.not_writesTo_of_not_asksWrite he name)

end World

namespace Service

/-- That a renewal is granted. -/
structure Granted (w : World) (csrPem : String) (caller : CallerIdentity) : Prop where
  named : ∃ csr, Csr.validate csrPem = .ok csr ∧ caller.commonName = csr.identity.commonName
  unrevoked : ∀ serial, caller.serialNumber = some serial →
    w.find? .revocations serial.text = none

/-- That a renewal is refused, with the first objection to it. -/
inductive Refused (w : World) (csrPem : String) (caller : CallerIdentity) : CaError → Prop where
  | unsound {e : CaError} (hinvalid : Csr.validate csrPem = .error e) :
    Refused w csrPem caller e
  | misnamed {csr : ValidatedCsr} (hvalid : Csr.validate csrPem = .ok csr)
    (hname : caller.commonName ≠ csr.identity.commonName) :
    Refused w csrPem caller (.identityMismatch caller.commonName csr.identity.commonName)
  | revoked {csr : ValidatedCsr} {serial : SerialNumber} {entry : Versioned Revocation}
    (hvalid : Csr.validate csrPem = .ok csr) (hname : caller.commonName = csr.identity.commonName)
    (hserial : caller.serialNumber = some serial)
    (hrevoked : w.find? .revocations serial.text = some entry) :
    Refused w csrPem caller (.certificateRevoked serial.text)

/-- A renewal is granted, or there is an objection to it. -/
theorem granted_or_refused (w : World) (csrPem : String) (caller : CallerIdentity) :
    Granted w csrPem caller ∨ ∃ e, Refused w csrPem caller e := by
  cases hvalid : Csr.validate csrPem with
  | error e => exact .inr ⟨e, .unsound hvalid⟩
  | ok csr =>
      by_cases hname : caller.commonName = csr.identity.commonName
      · cases hserial : caller.serialNumber with
        | none => exact .inl ⟨⟨csr, hvalid, hname⟩, by simp [hserial]⟩
        | some serial =>
            cases hfind : w.find? .revocations serial.text with
            | none =>
                refine .inl ⟨⟨csr, hvalid, hname⟩, fun other hother => ?_⟩
                cases hserial.symm.trans hother
                exact hfind
            | some entry => exact .inr ⟨_, .revoked hvalid hname hserial hfind⟩
      · exact .inr ⟨_, .misnamed hvalid hname⟩

/-- What chance decides while a certificate is renewed. -/
structure Draws where
  /-- When it is read whether the certificate that is presented is revoked. -/
  reading : Chance
  clock : Chance
  serial : Chance
  nonce : Chance
  /-- When the new certificate is entered. -/
  entry : Chance

/-- What chance decides, in turn; a revocation is read only if a certificate is presented. -/
def Draws.inTurn (draws : Draws) (caller : CallerIdentity) : List Chance :=
  (if caller.serialNumber.isSome then [draws.reading] else []) ++
    [draws.clock, draws.serial, draws.nonce, draws.entry]

/-- What the signer makes of a request that is renewed. -/
def renewalOf (s : Service) (csrPem : String) (draws : Draws) :
    Except IssuanceFailure IssuedCertificate :=
  Issuance.sign s.authority csrPem s.issuance.renewalValidityDays .autoRenewal draws.clock.time
    ⟨SerialNumber.bytesOfRandom ((List.range SerialNumber.size).map draws.serial.byte),
      Bytes.toNat ((List.range Authority.nonceSize).map draws.nonce.byte)⟩

section Alone

variable {s : Service} {w : World} {task : Nat} {csrPem : String} {caller : CallerIdentity}
variable {draws : Draws} {csr : ValidatedCsr} {issued : IssuedCertificate}

/-- What a renewal does for a caller who asks for a certificate of its own name. -/
theorem renew_of_named (hvalid : Csr.validate csrPem = .ok csr)
    (hname : caller.commonName = csr.identity.commonName) :
    s.renew csrPem caller = (Renewal.checkRevocation caller).bind fun _ =>
      (s.authority.sign csrPem s.issuance.renewalValidityDays .autoRenewal).bind fun issued =>
        (Registry.record issued).bind fun _ => .done issued := by
  rw [renew, Renewal.renew, hvalid, ← validate_pem hvalid]
  exact if_neg (not_not.mpr hname)

/-- The tables after a certificate was entered under a new serial number. -/
def entering (tables : MemoryTables) (issued : IssuedCertificate) : MemoryTables :=
  Function.update tables .certificates
    ⟨(tables .certificates).entries ++ [(issued.serialNumber.text, .fresh issued)]⟩

theorem alone_record (hnew : w.find? .certificates issued.serialNumber.text = none)
    (chance : Chance) :
    ∃ later, ((Registry.record issued).bind fun _ => Procedure.done issued).alone .reliable task
        [chance] w = (.done issued, later) ∧ later.tables = entering w.tables issued := by
  obtain ⟨hreply, htables⟩ := World.create_of_new chance task issued hnew
  refine ⟨_, ?_, htables⟩
  change (((Procedure.ofExcept (w.reply .reliable chance
    (.table .certificates (.create issued.serialNumber.text issued)))).bind fun _ =>
      Procedure.done ()).bind fun _ => Procedure.done issued).alone .reliable task [] _ = _
  rw [hreply]
  rfl

/-- Signs, and enters the certificate. -/
theorem alone_sign (hsigned : s.renewalOf csrPem draws = .ok issued)
    (hnew : w.find? .certificates issued.serialNumber.text = none) :
    ∃ later, ((s.authority.sign csrPem s.issuance.renewalValidityDays .autoRenewal).bind
        fun issued => (Registry.record issued).bind fun _ => Procedure.done issued).alone .reliable
          task [draws.clock, draws.serial, draws.nonce, draws.entry] w = (.done issued, later) ∧
      later.tables = entering w.tables issued := by
  -- Neither reading the clock nor drawing bytes makes a difference to the tables.
  have hdrawn (found : World) (htables : found.tables = w.tables) :
      ∃ later, ((Authority.ofTask (s.renewalOf csrPem draws)).bind fun issued =>
          (Registry.record issued).bind fun _ => Procedure.done issued).alone .reliable task
            [draws.entry] found = (.done issued, later) ∧
        later.tables = entering w.tables issued := by
    rw [World.find?, ← htables] at hnew
    rw [hsigned, ← htables]
    exact alone_record hnew draws.entry
  exact hdrawn _ rfl

/-- Reads whether the certificate that is presented is revoked. -/
theorem alone_checkRevocation {α : Type} {serial : SerialNumber}
    (hserial : caller.serialNumber = some serial) (next : Procedure α) (chance : Chance)
    (chances : List Chance) :
    ((Renewal.checkRevocation caller).bind fun _ => next).alone .reliable task (chance :: chances)
        w =
      (if (w.find? .revocations serial.text).isSome then
        .error (.certificateRevoked serial.text) else next).alone .reliable task chances
          (w.after .reliable chance task (.table .revocations (.get serial.text))) := by
  rw [Renewal.checkRevocation, hserial]
  change ((if (w.find? .revocations serial.text).isSome then
    Procedure.error (.certificateRevoked serial.text) else .done ()).bind fun _ => next).alone
      .reliable task chances _ = _
  split
  · rfl
  · rfl

/-- A renewal that is granted enters the certificate that is signed for it. -/
theorem alone_of_granted (hgranted : Granted w csrPem caller)
    (hsigned : s.renewalOf csrPem draws = .ok issued)
    (hnew : w.find? .certificates issued.serialNumber.text = none) :
    ∃ later, (s.renew csrPem caller).alone .reliable task (draws.inTurn caller) w =
        (.done issued, later) ∧ later.tables = entering w.tables issued := by
  obtain ⟨⟨csr, hvalid, hname⟩, hunrevoked⟩ := hgranted
  rw [renew_of_named hvalid hname, Draws.inTurn]
  cases hserial : caller.serialNumber with
  | none =>
      rw [Renewal.checkRevocation, hserial]
      exact alone_sign hsigned hnew
  | some serial =>
      have hread : (w.after .reliable draws.reading task
          (.table .revocations (.get serial.text))).tables = w.tables :=
        w.tables_after_of_not_asksWrite _ _ _ rfl
      change ∃ later, Procedure.alone _ _ _ (draws.reading :: _) _ = _ ∧ _
      rw [alone_checkRevocation hserial, hunrevoked serial hserial, ← hread]
      apply alone_sign hsigned
      rwa [World.find?, hread]

/-- A renewal that is refused leaves all tables alone. -/
theorem alone_of_refused {e : CaError} (hrefused : Refused w csrPem caller e) (draws : Draws) :
    ∃ later, (s.renew csrPem caller).alone .reliable task (draws.inTurn caller) w =
        (.fail (.error e), later) ∧ later.tables = w.tables := by
  cases hrefused with
  | unsound hinvalid =>
      refine ⟨w, ?_, rfl⟩
      rw [renew, Renewal.renew, hinvalid]
      rfl
  | misnamed hvalid hname =>
      refine ⟨w, ?_, rfl⟩
      rw [renew, Renewal.renew, hvalid]
      simp only [ne_eq, hname, not_false_eq_true, if_true]
      rfl
  | @revoked csr serial entry hvalid hname hserial hrevoked =>
      refine ⟨w.after .reliable draws.reading task (.table .revocations (.get serial.text)), ?_,
        w.tables_after_of_not_asksWrite _ _ _ rfl⟩
      rw [renew_of_named hvalid hname, Draws.inTurn, hserial]
      change Procedure.alone _ _ _ (draws.reading :: _) _ = _
      rw [alone_checkRevocation hserial, hrevoked]
      rfl

theorem endsWithin_sign (a : Authority) (csrPem : String) (days : Nat)
    (issuer : CertificateIssuer) : (a.sign csrPem days issuer).EndsWithin 3 := by
  intro now serial nonce
  change (Authority.ofTask _).EndsWithin 0
  generalize Issuance.sign a csrPem days issuer now _ = result
  cases result with
  | ok issued => trivial
  | error f => cases f <;> exact nofun

end Alone

section Run

variable {s : Service} {csrPem : String} {caller : CallerIdentity}

/-- The office after somebody has asked for a renewal, with nothing in between. -/
def renewing (o : Office s.desk) (csrPem : String) (caller : CallerIdentity) (draws : Draws) :
    Office s.desk :=
  o.after .reliable
    (.start (.renew csrPem caller) :: (draws.inTurn caller).map (.advance o.tasks.length))

/-- It is what is left once the renewal was done alone. -/
theorem renewing_of_alone {o : Office s.desk} {draws : Draws} {rest : Procedure IssuedCertificate}
    {later : World} {outcome : Except Failure IssuedCertificate}
    (halone : (s.renew csrPem caller).alone .reliable o.tasks.length (draws.inTurn caller) o.world =
      (rest, later)) (houtcome : rest.outcome? = some outcome) :
    (renewing o csrPem caller draws).world = later ∧
      (renewing o csrPem caller draws).Ended o.tasks.length (.renew csrPem caller) outcome :=
  have hdone : (s.desk.procedure (.renew csrPem caller)).alone .reliable o.tasks.length
      (draws.inTurn caller) o.world = (rest, later) := halone
  Office.ended_of_alone hdone houtcome

variable {stores : Stores} {moves : List (Move s.desk)}

/-- What a renewal that was granted has made of the tables. -/
structure Renewed (s : Service) (w later : World) (issued : IssuedCertificate) : Prop where
  /-- The new certificate stands behind those that were there. -/
  certificates : (later.tables .certificates).entries =
    (w.tables .certificates).entries ++ [(issued.serialNumber.text, .fresh issued)]
  others : ∀ name, name ≠ .certificates → later.tables name = w.tables name
  issuer : issued.issuer = .autoRenewal
  /-- It ends as many days after its issue as the policy says. -/
  expires : issued.issuedAt.addDays? s.issuance.renewalValidityDays = some issued.expiresAt

theorem renewed_of_entering {w later : World} {draws : Draws} {issued : IssuedCertificate}
    (hsigned : s.renewalOf csrPem draws = .ok issued)
    (htables : later.tables = entering w.tables issued) : Renewed s w later issued where
  certificates := by rw [htables, entering, Function.update_self]
  others := by
    intro name hname
    rw [htables]
    exact Function.update_of_ne hname _ _
  issuer := Issuance.issuer_of_sign hsigned
  expires := Issuance.expires_of_sign hsigned

/-- Who is granted a renewal, after any moves.  Where a renewal is said to be done, it is done with
nothing in between, and stores do not fail then. -/
structure Authorization (s : Service) (stores : Stores) (moves : List (Move s.desk)) : Prop where
  /-- One that is not granted ends with the first objection and leaves all tables alone. -/
  refused : ∀ csrPem caller, ¬ Granted (Office.run stores moves).world csrPem caller →
    ∃ e, Refused (Office.run stores moves).world csrPem caller e ∧ ∀ draws,
      (renewing (Office.run stores moves) csrPem caller draws).Ended
          (Office.run stores moves).tasks.length (.renew csrPem caller) (.error (.error e)) ∧
        (renewing (Office.run stores moves) csrPem caller draws).world.tables =
          (Office.run stores moves).world.tables
  /-- If the signer does not fail and draws a new serial number, one that is granted gives the
  certificate that was signed, and enters it. -/
  granted : ∀ csrPem caller, Granted (Office.run stores moves).world csrPem caller →
    ∀ draws issued, s.renewalOf csrPem draws = .ok issued →
      (Office.run stores moves).world.find? .certificates issued.serialNumber.text = none →
        (renewing (Office.run stores moves) csrPem caller draws).Ended
            (Office.run stores moves).tasks.length (.renew csrPem caller) (.ok issued) ∧
          Renewed s (Office.run stores moves).world
            (renewing (Office.run stores moves) csrPem caller draws).world issued
  /-- Nobody else is given a certificate, so that a renewal succeeds if and only if it is
  granted. -/
  only : ∀ csrPem caller draws issued,
    (renewing (Office.run stores moves) csrPem caller draws).Ended
        (Office.run stores moves).tasks.length (.renew csrPem caller) (.ok issued) →
      Granted (Office.run stores moves).world csrPem caller
  /-- Whatever comes in between, whoever presents a certificate whose revocation has returned before
  is given none. -/
  overtaken : ∀ j serial revokedBy revocation,
    (Office.run stores moves).Ended j (.revoke serial revokedBy) (.ok revocation) →
      ∀ (more : List (Move s.desk)) i csrPem caller issued,
        (Office.run stores moves).tasks.length ≤ i → caller.serialNumber = some serial →
          ¬ (Office.run stores (moves ++ more)).Ended i (.renew csrPem caller) (.ok issued)

/-- A renewal is granted to those only who are authorized, and refused for the first objection. -/
theorem authorization (s : Service) (stores : Stores) (moves : List (Move s.desk)) :
    Authorization s stores moves where
  refused := by
    intro csrPem caller hnot
    obtain ⟨e, hrefused⟩ := (granted_or_refused _ csrPem caller).resolve_left hnot
    refine ⟨e, hrefused, fun draws => ?_⟩
    obtain ⟨later, halone, htables⟩ := alone_of_refused hrefused draws
    obtain ⟨rfl, hended⟩ := renewing_of_alone halone rfl
    exact ⟨hended, htables⟩
  granted := by
    intro csrPem caller hgranted draws issued hsigned hnew
    obtain ⟨later, halone, htables⟩ := alone_of_granted hgranted hsigned hnew
    obtain ⟨rfl, hended⟩ := renewing_of_alone halone rfl
    exact ⟨hended, renewed_of_entering hsigned htables⟩
  only := by
    rintro csrPem caller draws issued ⟨rest, htask, houtcome⟩
    rcases granted_or_refused (Office.run stores moves).world csrPem caller with
      hgranted | ⟨e, hrefused⟩
    · exact hgranted
    · obtain ⟨later, halone, -⟩ := alone_of_refused hrefused draws
      obtain ⟨-, failed, hfailed, herror⟩ := renewing_of_alone halone rfl
      cases hfailed.symm.trans htask
      cases herror.symm.trans houtcome
  overtaken := by
    intro j serial revokedBy revocation hended more i csrPem caller issued hlater hserial
    exact not_renewed_of_revoked (find_of_revoked hended) hlater hserial issued

end Run

end Service

end CertAuthority
