import CertAuthority.Proofs.Authority.Acceptance
import CertAuthority.Proofs.Service.Naming
import CertAuthority.Proofs.Service.Renewal
import CertAuthority.Proofs.Service.Submission

/-!
# Which requests can be approved

A request is entered, and its token is spent, once it has passed its checks.  Whether it can then be
approved depends on whether it can be signed: if so, an approval with nothing in between succeeds;
if not, every approval fails, and the request stays pending.  It is the same with renewals.
-/

namespace CertAuthority

namespace Service

/-- What chance decides while a request is approved. -/
structure ApprovalDraws extends Draws where
  locking : Chance
  /-- When the decision is made. -/
  decision : Chance
  swap : Chance
  unlocking : Chance

/-- What chance decides, in turn. -/
def ApprovalDraws.inTurn (draws : ApprovalDraws) : List Chance :=
  [draws.locking, draws.reading, draws.clock, draws.serial, draws.nonce, draws.decision, draws.swap,
    draws.entry, draws.unlocking]

/-- What was drawn for a certificate. -/
def Draws.draw (draws : Draws) : Issuance.Draw :=
  ⟨SerialNumber.bytesOfRandom ((List.range SerialNumber.size).map draws.serial.byte),
    Bytes.toNat ((List.range Authority.nonceSize).map draws.nonce.byte)⟩

section Alone

variable {s : Service} {w : World} {approval : Ledger.Approval}
variable {entry : Versioned CertificateRequest} (task : Nat) (draws : ApprovalDraws)

/-- Reads the request, which is pending, and signs it. -/
theorem alone_decide (hfind : w.find? .requests approval.requestId.text = some entry)
    (hpending : entry.value.status.isTerminal = false) (last : Effect) (chances : List Chance) :
    ((Ledger.decide s.authority.sign approval).ensuring last).alone .reliable task
        (draws.reading :: draws.clock :: draws.serial :: draws.nonce :: chances) w =
      (((Authority.ofTask (Issuance.sign s.authority entry.value.csrPem approval.days
        (.request approval.requestId) draws.clock.time draws.draw)).bind
          (Ledger.commit approval entry)).ensuring last).alone .reliable task chances
        ((((w.after .reliable draws.reading task
          (.table .requests (.get approval.requestId.text))).after .reliable draws.clock task
            .now).after .reliable draws.serial task (.random SerialNumber.size)).after .reliable
              draws.nonce task (.random Authority.nonceSize)) := by
  have hreply : w.reply .reliable draws.reading
      (.table .requests (.get approval.requestId.text)) = .ok (some entry) :=
    congrArg Except.ok hfind
  have hpend := CertificateRequest.ensurePending_of_not_isTerminal hpending
  simp only [Ledger.decide, Ledger.find, Procedure.query, bind, Procedure.bind, Procedure.ensuring,
    Procedure.alone, hreply, Procedure.ofExcept, pure, hpend]
  rfl

/-- The tables after a request was decided. -/
def deciding (tables : MemoryTables) (id : RequestId) (entry : Versioned CertificateRequest)
    (decided : CertificateRequest) : MemoryTables :=
  Function.update tables .requests
    ⟨(tables .requests).entries.replace id.text (entry.overwrite decided)⟩

/-- Makes the decision, writes it, and enters the certificate. -/
theorem alone_commit {issued : IssuedCertificate} {decided : CertificateRequest}
    (hfind : w.find? .requests approval.requestId.text = some entry)
    (hmarked : entry.value.markApproved issued approval.approver approval.comment
      draws.decision.time = .ok decided)
    (hnew : w.find? .certificates issued.serialNumber.text = none) :
    ∃ later, ((Ledger.commit approval entry issued).ensuring (.unlock approval.requestId)).alone
        .reliable task [draws.decision, draws.swap, draws.entry, draws.unlocking] w =
          (.done issued, later) ∧
      later.tables = entering (deciding w.tables approval.requestId entry decided) issued := by
  have hclock : w.reply .reliable draws.decision .now = draws.decision.time := rfl
  simp only [Ledger.commit, Procedure.now, Registry.record, Procedure.query, bind, Procedure.bind,
    Procedure.ensuring, Procedure.alone, hclock, hmarked, Procedure.ofExcept]
  -- Reading the clock makes no difference to the tables.
  have htables : (w.after .reliable draws.decision task .now).tables = w.tables := rfl
  rw [World.find?, ← htables] at hfind hnew
  rw [← htables]
  generalize w.after .reliable draws.decision task .now = clocked at hfind hnew ⊢
  obtain ⟨hswapped, hdecided⟩ := World.update_of_current draws.swap task decided hfind
  rw [hswapped]
  have hstillNew : (clocked.after .reliable draws.swap task (.table .requests
      (.update approval.requestId.text decided entry.revision))).find? .certificates
        issued.serialNumber.text = none := by
    rw [World.find?, hdecided, Function.update_of_ne (by decide)]
    exact hnew
  obtain ⟨hentered, hentering⟩ := World.create_of_new draws.entry task issued hstillNew
  simp only [Procedure.bind, Procedure.ensuring, Procedure.alone, hentered]
  rw [hdecided] at hentering
  exact ⟨_, rfl, hentering⟩

/-- What the signer makes of a request that is approved. -/
def signed (s : Service) (approval : Ledger.Approval) (csrPem : String) (draws : Draws) :
    Except IssuanceFailure IssuedCertificate :=
  Issuance.sign s.authority csrPem approval.days (.request approval.requestId) draws.clock.time
    draws.draw

/-- An approval that nothing stands against signs the request first. -/
theorem alone_approve (hcheck : approval.check s.issuance.maxValidityDays = .ok ())
    (hfind : w.find? .requests approval.requestId.text = some entry)
    (hpending : entry.value.status.isTerminal = false) :
    ∃ found, found.tables = w.tables ∧
      (Ledger.approve s.authority.sign s.issuance.maxValidityDays approval).alone .reliable task
          draws.inTurn w =
        (((Authority.ofTask (signed s approval entry.value.csrPem draws.toDraws)).bind
          (Ledger.commit approval entry)).ensuring (.unlock approval.requestId)).alone .reliable task
            [draws.decision, draws.swap, draws.entry, draws.unlocking] found := by
  rw [Ledger.approve, hcheck]
  let locked := w.after .reliable draws.locking task (.lock approval.requestId)
  have hdecide := alone_decide (s := s) (w := locked) task draws hfind hpending
    (.unlock approval.requestId) [draws.decision, draws.swap, draws.entry, draws.unlocking]
  refine ⟨_, ?_, hdecide⟩
  exact locked.tables_after_of_not_asksWrite .reliable draws.reading task
    (show (Effect.table .requests (.get approval.requestId.text)).asksWrite = false from rfl)

/-- An approval of a request that is signed decides the request and enters the certificate. -/
theorem alone_of_signed {issued : IssuedCertificate}
    (hcheck : approval.check s.issuance.maxValidityDays = .ok ())
    (hfind : w.find? .requests approval.requestId.text = some entry)
    (hpending : entry.value.status.isTerminal = false)
    (hsigned : signed s approval entry.value.csrPem draws.toDraws = .ok issued)
    (hnew : w.find? .certificates issued.serialNumber.text = none) :
    ∃ later decided, (Ledger.approve s.authority.sign s.issuance.maxValidityDays approval).alone
        .reliable task draws.inTurn w = (.done issued, later) ∧
      entry.value.markApproved issued approval.approver approval.comment draws.decision.time =
        .ok decided ∧
      later.tables = entering (deciding w.tables approval.requestId entry decided) issued := by
  obtain ⟨found, htables, halone⟩ := alone_approve task draws hcheck hfind hpending
  rw [halone, hsigned]
  rw [World.find?, ← htables] at hfind hnew
  rw [← htables]
  obtain ⟨decided, hmarked⟩ := CertificateRequest.markApproved_of_pending hpending issued
    approval.approver approval.comment draws.decision.time
  obtain ⟨later, hlater, hdone⟩ := alone_commit task draws hfind hmarked hnew
  exact ⟨later, decided, hlater, hmarked, hdone⟩

/-- An approval of a request that is not signed leaves all tables alone. -/
theorem alone_of_unsigned {e : CaError}
    (hcheck : approval.check s.issuance.maxValidityDays = .ok ())
    (hfind : w.find? .requests approval.requestId.text = some entry)
    (hpending : entry.value.status.isTerminal = false)
    (hunsigned : Authority.ofTask (signed s approval entry.value.csrPem draws.toDraws) = .error e) :
    ∃ later, (Ledger.approve s.authority.sign s.issuance.maxValidityDays approval).alone
        .reliable task draws.inTurn w = (.fail (.error e), later) ∧ later.tables = w.tables := by
  obtain ⟨found, htables, halone⟩ := alone_approve task draws hcheck hfind hpending
  rw [halone, hunsigned, ← htables]
  exact ⟨_, rfl, rfl⟩

/-- A renewal that is granted signs the request, and changes nothing before that. -/
theorem alone_renew {csrPem : String} {caller : CallerIdentity} (draws : Draws)
    (hgranted : Granted w csrPem caller) :
    ∃ found, found.tables = w.tables ∧
      (s.renew csrPem caller).alone .reliable task (draws.inTurn caller) w =
        ((Authority.ofTask (s.renewalOf csrPem draws)).bind fun issued =>
          (Registry.record issued).bind fun _ => .done issued).alone .reliable task [draws.entry]
            found := by
  obtain ⟨⟨csr, hvalid, hname⟩, hunrevoked⟩ := hgranted
  rw [renew_of_named hvalid hname, Draws.inTurn]
  cases hserial : caller.serialNumber with
  | none =>
      rw [Renewal.checkRevocation, hserial]
      refine ⟨_, ?_, rfl⟩
      rfl
  | some serial =>
      have hread : (w.after .reliable draws.reading task
          (.table .revocations (.get serial.text))).tables = w.tables :=
        w.tables_after_of_not_asksWrite _ _ _ rfl
      change ∃ found, _ ∧ Procedure.alone _ _ _ (draws.reading :: _) _ = _
      rw [alone_checkRevocation hserial, hunrevoked serial hserial]
      refine ⟨_, ?_, rfl⟩
      exact hread

/-- A renewal of a request that is not signed leaves all tables alone. -/
theorem alone_of_granted_unsigned {csrPem : String} {caller : CallerIdentity} {e : CaError}
    (draws : Draws) (hgranted : Granted w csrPem caller)
    (hunsigned : Authority.ofTask (s.renewalOf csrPem draws) = .error e) :
    ∃ later, (s.renew csrPem caller).alone .reliable task (draws.inTurn caller) w =
        (.fail (.error e), later) ∧ later.tables = w.tables := by
  obtain ⟨found, htables, halone⟩ := alone_renew (s := s) task draws hgranted
  rw [halone, hunsigned, ← htables]
  exact ⟨_, rfl, rfl⟩

end Alone

section Run

variable {s : Service} {stores : Stores} {moves : List (Move s.desk)}

/-- The error of a request that cannot be signed. -/
def notLoaded : CaError :=
  .signing "Failed to load CSR for signing"

/-- The office after somebody has asked for an approval, with nothing in between. -/
def approving (o : Office s.desk) (id : RequestId) (approver : String) (days : Option Nat)
    (comment : String) (draws : ApprovalDraws) : Office s.desk :=
  o.after .reliable
    (.start (.approve id approver days comment) :: draws.inTurn.map (.advance o.tasks.length))

/-- That a request stands in the ledger and is pending. -/
def Awaits (w : World) (id : RequestId) (r : CertificateRequest) : Prop :=
  r.status.isTerminal = false ∧ ∃ revision, w.find? .requests id.text = some ⟨r, revision⟩

/-- That a certificate was entered for a request, which was decided. -/
def Approved (w later : World) (id : RequestId) (r : CertificateRequest)
    (issued : IssuedCertificate) : Prop :=
  ∃ revision decided, r.Decision decided ∧ decided.certificatePem = some issued.certificatePem ∧
    later.tables = entering (deciding w.tables id ⟨r, revision⟩ decided) issued

/-- What becomes of requests that have passed their checks, after any moves.  Where an approval or a
renewal is said to be done, it is done with nothing in between, and stores do not fail then. -/
structure Outcomes (s : Service) (stores : Stores) (moves : List (Move s.desk)) : Prop where
  /-- A request that can be signed is signed, if the dates fit and the key signs. -/
  signed : ∀ csrPem csr, Csr.validate csrPem = .ok csr → Csr.IsSignable csrPem →
    ∀ days issuer now draw, Issuance.Fits now days →
      Issuance.KeySigns s.authority csrPem days now draw →
        ∃ issued, Issuance.sign s.authority csrPem days issuer now draw = .ok issued
  /-- One that cannot be signed never is, -/
  unsigned : ∀ csrPem csr, Csr.validate csrPem = .ok csr → ¬ Csr.IsSignable csrPem →
    ∀ days issuer now draw,
      Issuance.sign s.authority csrPem days issuer now draw = .error (.error notLoaded)
  /-- such as one that asks for an extension of a type of which none is granted. -/
  foreign : ∀ csrPem request e, Csr.read csrPem = .ok request → e ∈ request.requestedExtensions →
    e.oid ∉ Candidate.grantedTypes → ¬ Csr.IsSignable csrPem
  /-- A request that is entered and can be signed is approved. -/
  approved : ∀ id r, Awaits (Office.run stores moves).world id r → Csr.IsSignable r.csrPem →
    ∀ approver days comment draws,
      (s.approval id approver days comment).check s.issuance.maxValidityDays = .ok () →
      Issuance.Fits draws.clock.time (s.approval id approver days comment).days →
      Issuance.KeySigns s.authority r.csrPem (s.approval id approver days comment).days
        draws.clock.time draws.draw →
      (Office.run stores moves).world.find? .certificates
        (SerialNumber.ofBytes draws.draw.serial).text = none →
          ∃ issued,
            (approving (Office.run stores moves) id approver days comment draws).Ended
              (Office.run stores moves).tasks.length (.approve id approver days comment)
              (.ok issued) ∧
            Approved (Office.run stores moves).world
              (approving (Office.run stores moves) id approver days comment draws).world id r issued
  /-- One that is entered and cannot be signed stays as it is. -/
  stuck : ∀ id r, Awaits (Office.run stores moves).world id r → ¬ Csr.IsSignable r.csrPem →
    ∀ approver days comment draws,
      (s.approval id approver days comment).check s.issuance.maxValidityDays = .ok () →
        (approving (Office.run stores moves) id approver days comment draws).Ended
            (Office.run stores moves).tasks.length (.approve id approver days comment)
            (.error (.error notLoaded)) ∧
          (approving (Office.run stores moves) id approver days comment draws).world.tables =
            (Office.run stores moves).world.tables
  /-- Whatever comes in between, no request is approved that cannot be signed. -/
  approvedOnly : ∀ i id approver days comment issued,
    (Office.run stores moves).Ended i (.approve id approver days comment) (.ok issued) →
      ∃ entry, (Office.run stores moves).world.find? .requests id.text = some entry ∧
        Csr.IsSignable entry.value.csrPem
  /-- A renewal that is granted gives a certificate if its request can be signed, -/
  renewed : ∀ csrPem caller, Granted (Office.run stores moves).world csrPem caller →
    Csr.IsSignable csrPem → ∀ draws : Draws,
      Issuance.Fits draws.clock.time s.issuance.renewalValidityDays →
      Issuance.KeySigns s.authority csrPem s.issuance.renewalValidityDays draws.clock.time
        draws.draw →
      (Office.run stores moves).world.find? .certificates
        (SerialNumber.ofBytes draws.draw.serial).text = none →
          ∃ issued,
            (renewing (Office.run stores moves) csrPem caller draws).Ended
              (Office.run stores moves).tasks.length (.renew csrPem caller) (.ok issued) ∧
            Renewed s (Office.run stores moves).world
              (renewing (Office.run stores moves) csrPem caller draws).world issued
  /-- and changes nothing otherwise. -/
  unrenewed : ∀ csrPem caller, Granted (Office.run stores moves).world csrPem caller →
    ¬ Csr.IsSignable csrPem → ∀ draws,
      (renewing (Office.run stores moves) csrPem caller draws).Ended
          (Office.run stores moves).tasks.length (.renew csrPem caller) (.error (.error notLoaded)) ∧
        (renewing (Office.run stores moves) csrPem caller draws).world.tables =
          (Office.run stores moves).world.tables
  /-- Whatever comes in between, no renewal gives a certificate whose request cannot be signed. -/
  renewedOnly : ∀ i csrPem caller issued,
    (Office.run stores moves).Ended i (.renew csrPem caller) (.ok issued) → Csr.IsSignable csrPem

/-- The text of a request that is entered was validated. -/
theorem exists_validate_of_awaits {id : RequestId} {r : CertificateRequest}
    (hawaits : Awaits (Office.run stores moves).world id r) :
    ∃ csr, Csr.validate r.csrPem = .ok csr := by
  obtain ⟨-, revision, hfind⟩ := hawaits
  obtain ⟨-, task, token, hspent⟩ := spent_of_find hfind
  obtain ⟨csr, hvalid, -⟩ := hspent.validated
  exact ⟨csr, hvalid⟩

/-- It is what is left once the approval was done alone. -/
theorem approving_of_alone {o : Office s.desk} {id : RequestId} {approver : String}
    {days : Option Nat} {comment : String} {draws : ApprovalDraws}
    {rest : Procedure IssuedCertificate} {later : World}
    {outcome : Except Failure IssuedCertificate}
    (halone : (Ledger.approve s.authority.sign s.issuance.maxValidityDays
      (s.approval id approver days comment)).alone .reliable o.tasks.length draws.inTurn o.world =
        (rest, later)) (houtcome : rest.outcome? = some outcome) :
    (approving o id approver days comment draws).world = later ∧
      (approving o id approver days comment draws).Ended o.tasks.length
        (.approve id approver days comment) outcome :=
  have hdone : (s.desk.procedure (.approve id approver days comment)).alone .reliable
      o.tasks.length draws.inTurn o.world = (rest, later) := halone
  Office.ended_of_alone hdone houtcome

/-- An approval with nothing in between of a request that is signed. -/
theorem approving_of_signed {o : Office s.desk} {id : RequestId} {r : CertificateRequest}
    {approver : String} {days : Option Nat} {comment : String} {draws : ApprovalDraws}
    {issued : IssuedCertificate} (hawaits : Awaits o.world id r)
    (hcheck : (s.approval id approver days comment).check s.issuance.maxValidityDays = .ok ())
    (hsigned : signed s (s.approval id approver days comment) r.csrPem draws.toDraws = .ok issued)
    (hnew : o.world.find? .certificates issued.serialNumber.text = none) :
    (approving o id approver days comment draws).Ended o.tasks.length
        (.approve id approver days comment) (.ok issued) ∧
      Approved o.world (approving o id approver days comment draws).world id r issued := by
  obtain ⟨hpending, revision, hfind⟩ := hawaits
  obtain ⟨later, decided, halone, hmarked, htables⟩ :=
    alone_of_signed o.tasks.length draws hcheck hfind hpending hsigned hnew
  obtain ⟨rfl, hended⟩ := approving_of_alone halone rfl
  have hpem : decided.certificatePem = some issued.certificatePem := by
    rw [(CertificateRequest.markApproved_eq hmarked).2]
  exact ⟨hended, revision, decided, .approved _ _ _ _ hmarked, hpem, htables⟩

/-- An approval with nothing in between of a request that can be signed. -/
theorem approving_of_isSignable {o : Office s.desk} {id : RequestId} {r : CertificateRequest}
    {csr : ValidatedCsr} {approver : String} {days : Option Nat} {comment : String}
    {draws : ApprovalDraws} (hawaits : Awaits o.world id r)
    (hvalid : Csr.validate r.csrPem = .ok csr) (hsignable : Csr.IsSignable r.csrPem)
    (hcheck : (s.approval id approver days comment).check s.issuance.maxValidityDays = .ok ())
    (hfits : Issuance.Fits draws.clock.time (s.approval id approver days comment).days)
    (hsigns : Issuance.KeySigns s.authority r.csrPem (s.approval id approver days comment).days
      draws.clock.time draws.draw)
    (hnew : o.world.find? .certificates (SerialNumber.ofBytes draws.draw.serial).text = none) :
    ∃ issued,
      (approving o id approver days comment draws).Ended o.tasks.length
        (.approve id approver days comment) (.ok issued) ∧
      Approved o.world (approving o id approver days comment draws).world id r issued := by
  obtain ⟨issued, hsigned⟩ : ∃ issued,
      signed s (s.approval id approver days comment) r.csrPem draws.toDraws = .ok issued :=
    Issuance.exists_sign hvalid hsignable hfits hsigns
  rw [← Issuance.serialNumber_of_sign hsigned] at hnew
  exact ⟨issued, approving_of_signed hawaits hcheck hsigned hnew⟩

/-- An approval with nothing in between of a request that is not signed. -/
theorem approving_of_unsigned {o : Office s.desk} {id : RequestId} {r : CertificateRequest}
    {approver : String} {days : Option Nat} {comment : String} {draws : ApprovalDraws} {e : CaError}
    (hawaits : Awaits o.world id r)
    (hcheck : (s.approval id approver days comment).check s.issuance.maxValidityDays = .ok ())
    (hunsigned : Authority.ofTask (signed s (s.approval id approver days comment) r.csrPem
      draws.toDraws) = .error e) :
    (approving o id approver days comment draws).Ended o.tasks.length
        (.approve id approver days comment) (.error (.error e)) ∧
      (approving o id approver days comment draws).world.tables = o.world.tables := by
  obtain ⟨hpending, revision, hfind⟩ := hawaits
  obtain ⟨later, halone, htables⟩ :=
    alone_of_unsigned o.tasks.length draws hcheck hfind hpending hunsigned
  obtain ⟨rfl, hended⟩ := approving_of_alone halone rfl
  exact ⟨hended, htables⟩

/-- A renewal with nothing in between that is granted and not signed. -/
theorem renewing_of_unsigned {o : Office s.desk} {csrPem : String} {caller : CallerIdentity}
    {draws : Draws} {e : CaError} (hgranted : Granted o.world csrPem caller)
    (hunsigned : Authority.ofTask (s.renewalOf csrPem draws) = .error e) :
    (renewing o csrPem caller draws).Ended o.tasks.length (.renew csrPem caller)
        (.error (.error e)) ∧
      (renewing o csrPem caller draws).world.tables = o.world.tables := by
  obtain ⟨later, halone, htables⟩ := alone_of_granted_unsigned _ draws hgranted hunsigned
  obtain ⟨rfl, hended⟩ := renewing_of_alone halone rfl
  exact ⟨hended, htables⟩

/-- A renewal with nothing in between that is granted for a request that can be signed. -/
theorem renewing_of_isSignable {o : Office s.desk} {csrPem : String} {caller : CallerIdentity}
    {draws : Draws} (hgranted : Granted o.world csrPem caller) (hsignable : Csr.IsSignable csrPem)
    (hfits : Issuance.Fits draws.clock.time s.issuance.renewalValidityDays)
    (hsigns : Issuance.KeySigns s.authority csrPem s.issuance.renewalValidityDays draws.clock.time
      draws.draw)
    (hnew : o.world.find? .certificates (SerialNumber.ofBytes draws.draw.serial).text = none) :
    ∃ issued,
      (renewing o csrPem caller draws).Ended o.tasks.length (.renew csrPem caller) (.ok issued) ∧
        Renewed s o.world (renewing o csrPem caller draws).world issued := by
  obtain ⟨csr, hvalid, -⟩ := hgranted.named
  obtain ⟨issued, hsigned⟩ : ∃ issued, s.renewalOf csrPem draws = .ok issued :=
    Issuance.exists_sign hvalid hsignable hfits hsigns
  have hserial : issued.serialNumber = .ofBytes draws.draw.serial :=
    Issuance.serialNumber_of_sign hsigned
  rw [← hserial] at hnew
  obtain ⟨later, halone, htables⟩ := alone_of_granted hgranted hsigned hnew
  obtain ⟨rfl, hended⟩ := renewing_of_alone halone rfl
  exact ⟨issued, hended, renewed_of_entering hsigned htables⟩

/-- A request that was approved can be signed. -/
theorem isSignable_of_approved {i : Nat} {id : RequestId} {approver : String} {days : Option Nat}
    {comment : String} {issued : IssuedCertificate}
    (hended : (Office.run stores moves).Ended i (.approve id approver days comment) (.ok issued)) :
    ∃ entry, (Office.run stores moves).world.find? .requests id.text = some entry ∧
      Csr.IsSignable entry.value.csrPem := by
  obtain ⟨rest, htask, houtcome⟩ := hended
  obtain ⟨r, decided, hgrant, hchange⟩ :=
    grant_of_ok (deciding_of_approve (abides s stores moves) htask) houtcome
  obtain ⟨⟨revision, hfind⟩, csr, hvalid, -⟩ :=
    validated_of_change (abides s stores moves).lawful (World.mem_log_of_mem_calls hchange)
  obtain ⟨now, hmarked⟩ := hgrant.marked
  obtain ⟨signedAt, draw, hsigned⟩ := hgrant.signed
  have hpem : decided.csrPem = r.csrPem := by rw [(CertificateRequest.markApproved_eq hmarked).2]
  rw [← hpem] at hsigned
  exact ⟨_, hfind, Issuance.isSignable_of_sign hvalid hsigned⟩

/-- Requests that have passed their checks are signed, approved and renewed if and only if their
subjects can be written and the extensions that they ask for can be granted. -/
theorem outcomes (s : Service) (stores : Stores) (moves : List (Move s.desk)) :
    Outcomes s stores moves where
  signed := by
    intro csrPem csr hvalid hsignable days issuer now draw hfits hsigns
    exact Issuance.exists_sign hvalid hsignable hfits hsigns
  unsigned := by
    intro csrPem csr hvalid hnot days issuer now draw
    exact Issuance.sign_of_not_isSignable hvalid hnot
  foreign := by
    rintro csrPem request e hread he hforeign ⟨other, hother, hsignable⟩
    cases hread.symm.trans hother
    exact hforeign (Candidate.mem_grantedTypes (hsignable.granted e he))
  approved := by
    intro id r hawaits hsignable approver days comment draws hcheck hfits hsigns hnew
    obtain ⟨csr, hvalid⟩ := exists_validate_of_awaits hawaits
    exact approving_of_isSignable hawaits hvalid hsignable hcheck hfits hsigns hnew
  stuck := by
    intro id r hawaits hnot approver days comment draws hcheck
    obtain ⟨csr, hvalid⟩ := exists_validate_of_awaits hawaits
    exact approving_of_unsigned hawaits hcheck
      (congrArg Authority.ofTask (Issuance.sign_of_not_isSignable hvalid hnot))
  approvedOnly := by
    intro i id approver days comment issued hended
    exact isSignable_of_approved hended
  renewed := by
    intro csrPem caller hgranted hsignable draws hfits hsigns hnew
    exact renewing_of_isSignable hgranted hsignable hfits hsigns hnew
  unrenewed := by
    intro csrPem caller hgranted hnot draws
    obtain ⟨csr, hvalid, -⟩ := hgranted.named
    exact renewing_of_unsigned hgranted
      (congrArg Authority.ofTask (Issuance.sign_of_not_isSignable hvalid hnot))
  renewedOnly := by
    rintro i csrPem caller issued ⟨rest, htask, houtcome⟩
    have hrenewing : Renewing s i csrPem caller ((Office.run stores moves).world.calls i) rest :=
      ((abides s stores moves).tasks i (.renew csrPem caller) rest htask).promised
    obtain ⟨⟨csr, hvalid, -⟩, ⟨now, draw, hsigned⟩, -⟩ :=
      hrenewing.issued issued (Procedure.eq_done_of_outcome? houtcome)
    exact Issuance.isSignable_of_sign hvalid hsigned

end Run

end Service

end CertAuthority
