import CertAuthority.Csr.Generated
import CertAuthority.Proofs.Service.Footprint
import CertAuthority.Proofs.Token.Expiry

/-!
# The way to a certificate

An operator issues a token, an agent submits its request with it, and the operator approves the
request.  If each of them acts with nothing in between, and nothing stands against it, the next one
finds what it needs: the token can be spent, the request awaits its decision, and in the end the
certificate is entered.
-/

namespace CertAuthority

namespace Tokens

/-- The token that fulfils an order. -/
def Order.token (order : Order) (id : TokenId) (now expiresAt : Instant) : BootstrapToken :=
  .create id order.commonName order.sources order.createdBy order.comment now expiresAt

/-- What chance decides while a token is issued, if its identifier is new. -/
structure OrderDraws where
  clock : Chance
  bytes : Chance
  entry : Chance

namespace OrderDraws

/-- What chance decides, in turn. -/
def inTurn (draws : OrderDraws) : List Chance :=
  [draws.clock, draws.bytes, draws.entry]

/-- The identifier that is drawn. -/
def tokenId (draws : OrderDraws) : TokenId :=
  identifierOf ((List.range 32).map draws.bytes.byte)

end OrderDraws

/-- The tables after a token was entered. -/
def holding (tables : MemoryTables) (token : BootstrapToken) : MemoryTables :=
  Function.update tables .tokens
    ⟨(tables .tokens).entries ++ [(token.tokenId.text, .fresh token)]⟩

/-- An order that can be fulfilled is fulfilled, if its identifier is free. -/
theorem alone_issue {order : Order} {draws : OrderDraws} {expiresAt : Instant} {w : World}
    (hcheck : order.check = .ok ()) (hvalidity : 0 ≤ order.validity)
    (hexpires : draws.clock.time.addSeconds? order.validity = some expiresAt)
    (hfree : w.find? .tokens draws.tokenId.text = none) (task : Nat) :
    ∃ later, (issue order).alone .reliable task draws.inTurn w =
        (.done (order.token draws.tokenId draws.clock.time expiresAt), later) ∧
      later.tables =
        holding w.tables (order.token draws.tokenId draws.clock.time expiresAt) := by
  let token := order.token draws.tokenId draws.clock.time expiresAt
  let drawn := (w.after .reliable draws.clock task .now).after .reliable draws.bytes task
    (.random 32)
  have hnew : drawn.find? .tokens token.tokenId.text = none := hfree
  obtain ⟨hreply, htables⟩ := World.create_of_new draws.entry task token hnew
  refine ⟨drawn.after .reliable draws.entry task
    (.table .tokens (.create token.tokenId.text token)), ?_, htables⟩
  rw [issue, hcheck]
  change ((make order draws.clock.time).bind _).alone .reliable task
    [draws.bytes, draws.entry] (w.after .reliable draws.clock task .now) = _
  rw [make_of_within hvalidity hexpires]
  change (entered token _ (drawn.reply .reliable draws.entry
    (.table .tokens (.create token.tokenId.text token)))).alone .reliable task [] _ = _
  rw [hreply]
  rfl

end Tokens

namespace Service

open Tokens (Order OrderDraws Spendable holding)

section Course

variable {s : Service} {o : Office s.desk} {a : Attempt} {csr : ValidatedCsr}
variable {held : Versioned BootstrapToken} {draws : SubmissionDraws}

/-- What is admitted passes the checks of every service, if it says what kind of agent it is for. -/
theorem passes_of_validate {unit : String} (htoken : Text.trim a.token ≠ "")
    (hinfo : isAgentInfo a.agentInfo = true) (hvalid : Csr.validate a.csrPem = .ok csr)
    (hunit : csr.identity.requireUsertype = .ok unit) : a.Passes s csr := by
  simp only [Attempt.Passes, checkSubmission, htoken, hinfo, hvalid, hunit, Bool.not_true,
    Bool.false_eq_true, if_false, ite_self]

/-- The office after somebody has submitted a request, with nothing in between. -/
def applying (o : Office s.desk) (a : Attempt) (draws : SubmissionDraws) : Office s.desk :=
  o.after .reliable (.start a.errand :: draws.inTurn.map (.advance o.tasks.length))

/-- A request that was submitted with a token that could be spent awaits its decision. -/
theorem applying_of_spendable (hpasses : a.Passes s csr)
    (hspendable : Spendable (a.redemption csr) o.world.tables held draws.clock.time)
    (hrounds : s.redeemRounds ≠ 0) (hfree : o.world.find? .requests draws.requestId.text = none) :
    (applying o a draws).Ended o.tasks.length a.errand (.ok draws.requestId) ∧
      (applying o a draws).world.tables .certificates = o.world.tables .certificates ∧
      ∃ r, Awaits (applying o a draws).world draws.requestId r ∧ r.csrPem = a.csrPem := by
  obtain ⟨later, halone⟩ :=
    alone_of_spendable hpasses hspendable hrounds hfree o.tasks.length
  have hdone : (s.desk.procedure a.errand).alone .reliable o.tasks.length draws.inTurn o.world =
      (.done draws.requestId, later) := halone
  obtain ⟨hworld, hended⟩ := Office.ended_of_alone hdone rfl
  have hleft : Left s a .reliable o.world.tables (.ok draws.requestId) later.tables :=
    (leaves_submit s a .reliable o.tasks.length rfl).of_alone halone
  refine ⟨hended, ?_⟩
  change (applying o a draws).world = later at hworld
  rw [hworld]
  generalize hlater : later.tables = tables at hleft
  cases hleft with
  | filed hpasses' hspendable' hfree' =>
      have hsettled := settled_of_filing hpasses' hspendable' hfree' hlater
      obtain ⟨r, hentries, hbrings, -⟩ := hsettled.requests
      have hfind : later.find? .requests draws.requestId.text = some (.fresh r) := by
        change (later.tables .requests).entries.find? draws.requestId.text = _
        rw [hentries, Entries.find?_append_single _ hsettled.free, if_pos rfl]
      refine ⟨?_, r, ⟨by rw [hbrings.pending]; rfl, _, hfind⟩, hbrings.csrPem⟩
      rw [← hlater]
      exact hsettled.certificates

/-- The certificate of a request that was approved is entered. -/
theorem find_of_approved {w later : World} {id : RequestId} {r : CertificateRequest}
    {issued : IssuedCertificate} (happroved : Approved w later id r issued)
    (hnew : w.find? .certificates issued.serialNumber.text = none) :
    later.find? .certificates issued.serialNumber.text = some (.fresh issued) := by
  obtain ⟨revision, decided, -, -, htables⟩ := happroved
  rw [World.find?, htables, entering, Function.update_self, deciding,
    Function.update_of_ne (by decide)]
  exact (Entries.find?_append_single _ hnew _).trans (if_pos rfl)

/-- Whoever can spend a token is given a certificate, which is entered, if the request passes its
checks and is signed once it is approved. -/
theorem entered_of_spendable {approver : String} {days : Option Nat} {comment : String}
    {last : ApprovalDraws} {issued : IssuedCertificate} (hpasses : a.Passes s csr)
    (hspendable : Spendable (a.redemption csr) o.world.tables held draws.clock.time)
    (hrounds : s.redeemRounds ≠ 0) (hfree : o.world.find? .requests draws.requestId.text = none)
    (hcheck : (s.approval draws.requestId approver days comment).check s.issuance.maxValidityDays =
      .ok ())
    (hsigned : signed s (s.approval draws.requestId approver days comment) a.csrPem last.toDraws =
      .ok issued)
    (hnew : o.world.find? .certificates issued.serialNumber.text = none) :
    (approving (applying o a draws) draws.requestId approver days comment last).Ended
        (applying o a draws).tasks.length (.approve draws.requestId approver days comment)
        (.ok issued) ∧
      (approving (applying o a draws) draws.requestId approver days comment last).world.find?
        .certificates issued.serialNumber.text = some (.fresh issued) := by
  obtain ⟨-, hcertificates, r, hawaits, hpem⟩ :=
    applying_of_spendable hpasses hspendable hrounds hfree
  rw [← hpem] at hsigned
  have hstill : (applying o a draws).world.find? .certificates issued.serialNumber.text =
      none := by
    rw [World.find?, hcertificates]
    exact hnew
  obtain ⟨hended, happroved⟩ := approving_of_signed hawaits hcheck hsigned hstill
  exact ⟨hended, find_of_approved happroved hstill⟩

end Course

/-! ### An agent of an example

At noon of the first day an operator issues a token to an agent, and the agent submits a request
with it; all bytes that are drawn are zero.
-/

/-- The service of an example, under the settings that hold where none are given. -/
def usual : Service where
  authority := {
    key := .ed25519 (List.replicate 32 7)
    name := ⟨[]⟩
    keyIdentifier := []
    certificatePem := ""
    certificateDer := []
    subjectDn := ""
    notAfter := Instant.ofSeconds 43200 }
  issuance := {}
  tokens := {}
  redeemRounds := 8

namespace Example

open X509

def noon : Chance := ⟨Instant.ofSeconds 43200, fun _ => 0, none⟩

def orderDraws : OrderDraws := ⟨noon, noon, noon⟩

def submissionDraws : SubmissionDraws := ⟨noon, noon, noon, noon, noon, noon⟩

def approvalDraws : ApprovalDraws := ⟨⟨noon, noon, noon, noon, noon⟩, noon, noon, noon, noon⟩

def order : Order :=
  ⟨some "host1_alice_J", hours 24, none, "ops", ""⟩

def token : BootstrapToken :=
  order.token orderDraws.tokenId noon.time (Instant.ofSeconds 129600)

def key : SigningKey := .ed25519 (List.replicate 32 5)

def info : Bytes := Csr.encodeInfo (Csr.subjectOf "host1_alice_J" (some "agent")) key

def request : Request where
  version := 0
  subject := Csr.subjectOf "host1_alice_J" (some "agent")
  publicKey := ⟨⟨Oid.ed25519, none⟩, key.publicBits, key.publicInfo⟩
  attributes := []
  info := info
  algorithm := ⟨Oid.ed25519, none⟩
  signature := (key.sign? 0 info).getD []

def requestDer : Bytes :=
  Asn1.encodeSequence [info, key.signatureAlgorithm, Asn1.encodeBits request.signature]

def csr : ValidatedCsr where
  pem := Pem.encodeUnix Csr.tag requestDer
  identity := ⟨"host1_alice_J", some "agent", "host1", "alice"⟩
  key := .ed25519

def attempt : Attempt where
  csrPem := csr.pem
  token := token.tokenId.text
  source := .v4 10 9 8 7
  agentInfo := .object []

theorem read_csr : Csr.read csr.pem = .ok request :=
  Csr.read_encodeUnix (by decide +kernel)

theorem checked_request : Csr.Checked request csr.identity csr.key where
  signed := by decide +kernel
  allowed := by decide
  key := rfl
  identity := by decide +kernel

theorem validate_csr : Csr.validate csr.pem = .ok csr :=
  Csr.validate_of_checked read_csr checked_request

theorem isSignable_csr : Csr.IsSignable csr.pem := by
  have hplain : request.subject.IsPlain :=
    (Name.isSome_singleValued?_iff request.subject).mp (by decide +kernel)
  have hnone : request.requestedExtensions = [] := rfl
  exact ⟨request, read_csr, hplain, by simp [hnone]⟩

def ordered : Errand :=
  .issueToken (some "host1_alice_J") (some 24) none "" "ops"

/-- The moves by which the token is issued. -/
def ordering (s : Service) : List (Move s.desk) :=
  .start ordered :: orderDraws.inTurn.map (.advance 0)

theorem perform_ordered (s : Service) : s.perform ordered = Tokens.issue order := by
  change s.issueToken (some "host1_alice_J") (some 24) none "" "ops" = Tokens.issue order
  rw [issueToken]
  rfl

theorem tables_ordering (s : Service) : (Office.run .reliable (ordering s)).world.tables =
    holding World.empty.tables token := by
  have hexpires : noon.time.addSeconds? order.validity = some (Instant.ofSeconds 129600) := by
    decide +kernel
  obtain ⟨later, halone, htables⟩ : ∃ later,
      (Tokens.issue order).alone .reliable 0 orderDraws.inTurn World.empty = (.done token, later) ∧
        later.tables = holding World.empty.tables token :=
    Tokens.alone_issue (by decide +kernel) (by decide) hexpires rfl 0
  rw [← perform_ordered s] at halone
  have hworld : (Office.run .reliable (ordering s)).world = later :=
    (@Office.ended_of_alone s.desk .reliable .initial ordered _ (.done token) later halone _ rfl).1
  rw [hworld, htables]

/-- The request passes the checks of every service. -/
theorem passes_attempt (s : Service) : attempt.Passes s csr :=
  passes_of_validate (by decide +kernel) rfl validate_csr rfl

theorem spendable_token (s : Service) : Spendable (attempt.redemption csr)
    (Office.run .reliable (ordering s)).world.tables (.fresh token) noon.time where
  found := by
    rw [tables_ordering]
    decide +kernel
  redeemable := by decide +kernel

/-- The moves by which the token is issued and the request is submitted with it. -/
def application (s : Service) : List (Move s.desk) :=
  ordering s ++ .start attempt.errand :: submissionDraws.inTurn.map (.advance 1)

theorem run_application (s : Service) : Office.run .reliable (application s) =
    applying (Office.run .reliable (ordering s)) attempt submissionDraws := by
  have hcount : (Office.run .reliable (ordering s)).tasks.length = 1 :=
    Office.length_tasks_after .reliable .initial (ordering s)
  rw [application, Office.run_append, applying, hcount]

theorem length_tasks_application (s : Service) :
    (Office.run .reliable (application s)).tasks.length = 2 :=
  Office.length_tasks_after .reliable .initial (application s)

/-- All of this happens at noon. -/
theorem eq_noon_of_mem {s : Service} {i : Nat} {chance : Chance}
    (hmove : .advance i chance ∈ application s) : chance = noon := by
  have hturn : i = 0 ∧ chance = noon ∨ i = 1 ∧ chance = noon := by
    simpa [application, ordering, OrderDraws.inTurn, orderDraws, SubmissionDraws.inTurn,
      submissionDraws] using hmove
  exact hturn.elim And.right And.right

/-- The request awaits its decision. -/
theorem awaits_application {s : Service} (hrounds : s.redeemRounds ≠ 0) :
    ∃ r, Awaits (Office.run .reliable (application s)).world submissionDraws.requestId r ∧
      r.csrPem = csr.pem := by
  have hfree : (Office.run .reliable (ordering s)).world.find? .requests
      submissionDraws.requestId.text = none := by
    rw [World.find?, tables_ordering]
    rfl
  obtain ⟨-, -, r, hawaits, hpem⟩ :=
    applying_of_spendable (passes_attempt s) (spendable_token s) hrounds hfree
  rw [run_application]
  exact ⟨r, hawaits, hpem⟩

/-- The moves by which the request is submitted and approved. -/
def certification (s : Service) : List (Move s.desk) :=
  application s ++ .start (.approve submissionDraws.requestId "admin" none "") ::
    approvalDraws.inTurn.map (.advance 2)

def candidate : Candidate :=
  ⟨request.subject, .ed25519, key.publicBits, []⟩

theorem read_csr_candidate : Candidate.read? csr.pem = some candidate :=
  (Candidate.read?_eq_some_iff read_csr).mpr
    ⟨verifies_any checked_request.signed, by decide, by decide +kernel, rfl, rfl⟩

theorem exists_signed : ∃ issued, signed usual
    (usual.approval submissionDraws.requestId "admin" none "") csr.pem approvalDraws.toDraws =
      .ok issued := by
  have hsome : (Issuance.issue usual.authority candidate 90 (.request submissionDraws.requestId)
      noon.time approvalDraws.toDraws.draw).toOption.isSome := by decide +kernel
  change ∃ issued, Issuance.sign usual.authority csr.pem 90 (.request submissionDraws.requestId)
    noon.time approvalDraws.toDraws.draw = .ok issued
  rw [Issuance.sign, read_csr_candidate]
  cases hissued : Issuance.issue usual.authority candidate 90 (.request submissionDraws.requestId)
      noon.time approvalDraws.toDraws.draw with
  | ok issued => exact ⟨issued, hissued⟩
  | error f =>
      rw [hissued] at hsome
      cases hsome

/-- The certificate of the request is entered. -/
theorem exists_certificate : ∃ issued,
    (Office.run .reliable (certification usual)).world.find? .certificates
      issued.serialNumber.text = some (.fresh issued) ∧
    issued.issuer = .request submissionDraws.requestId := by
  obtain ⟨issued, hsigned⟩ := exists_signed
  have hfree : (Office.run .reliable (ordering usual)).world.find? .requests
      submissionDraws.requestId.text = none := by
    rw [World.find?, tables_ordering]
    rfl
  have hnew : (Office.run .reliable (ordering usual)).world.find? .certificates
      issued.serialNumber.text = none := by
    rw [World.find?, tables_ordering]
    rfl
  obtain ⟨-, hfind⟩ := entered_of_spendable (passes_attempt usual) (spendable_token usual)
    (by decide) hfree (by decide +kernel) hsigned hnew
  refine ⟨issued, ?_, Issuance.issuer_of_sign hsigned⟩
  rw [certification, Office.run_append, ← length_tasks_application usual]
  rw [← run_application] at hfind
  exact hfind

end Example

end Service

end CertAuthority
