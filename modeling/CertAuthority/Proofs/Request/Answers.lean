import CertAuthority.Proofs.Office.Hosted
import CertAuthority.Proofs.Request.Custody
import CertAuthority.Service

/-!
# What readers of the requests are answered

Whoever turns to the requests on a host, with nothing in between, reads the table as it stands in
its file: to show one request or all of them, to approve one, or to open the table anew.
-/

namespace CertAuthority

namespace Ledger

/-- What is found under an identifier in what was read of the requests. -/
def lookUp (table : Except CaError (Entries CertificateRequest)) (id : RequestId) :
    Except Failure (Versioned CertificateRequest) :=
  match table with
  | .error e => .error (.error e)
  | .ok entries =>
    match entries.find? id.text with
    | some entry => .ok entry
    | none => .error (.error (.requestNotFound id.text))

/-- What an approval does with the request that it has read. -/
def settle (sign : Signer) (approval : Approval) (current : Versioned CertificateRequest) :
    Procedure IssuedCertificate := do
  Procedure.ofExcept current.value.ensurePending
  let issued ← sign current.value.csrPem approval.days (.request approval.requestId)
  commit approval current issued

section Host

variable {directory : String} {h : Host}

theorem Keeps.ask_get (hkeeps : Keeps directory h) (key : String) :
    h.ask .requests (.get key) = ((held directory h.disk).map (·.find? key), h.advance) :=
  hkeeps.ask .requests (.get key)

theorem Keeps.ask_list (hkeeps : Keeps directory h) :
    h.ask .requests .list = (held directory h.disk, h.advance) :=
  hkeeps.ask .requests .list

theorem Keeps.run_find (hkeeps : Keeps directory h) (id : RequestId) :
    (find id).run Host.reply h = (lookUp (held directory h.disk) id, h.advance) := by
  have hask := hkeeps.ask_get id.text
  rw [show find id = (Procedure.query .requests (.get id.text)).bind _ from rfl,
    Procedure.run_bind, Procedure.query, Procedure.run, Host.reply, hask]
  cases held directory h.disk with
  | error e => rfl
  | ok entries =>
      simp only [Except.map, lookUp, Procedure.ofExcept, Procedure.run]
      cases entries.find? id.text with
      | none => rfl
      | some entry => rfl

end Host

/-- What whoever turns to the requests on a host is answered, by a table as it was read. -/
structure Answers (s : Service) (directory : String) (h : Host)
    (table : Except CaError (Entries CertificateRequest)) : Prop where
  /-- A request that is asked for is looked up in the table. -/
  get : ∀ id, ((Ledger.get id).run Host.reply h).1 = (lookUp table id).map (·.value)
  /-- All requests of the table are listed. -/
  list : (list.run Host.reply h).1 = (table.mapError .error).map ordered
  /-- An approval decides the request that it finds in the table. -/
  approve : ∀ approval : Approval, approval.check s.issuance.maxValidityDays = .ok () →
    ((approve s.authority.sign s.issuance.maxValidityDays approval).run Host.reply h).1 =
      (lookUp table approval.requestId).bind fun current =>
        ((settle s.authority.sign approval current).run Host.reply h.advance).1
  /-- The table is opened again if it was read, and stays closed otherwise. -/
  reopen : FileTable.openAt CertificateRequest (file directory).path h.disk =
    (table.map fun _ => file directory, h.disk)

/-- Every reader is answered by the table as it stands in its file. -/
theorem Keeps.answers {directory : String} {h : Host} (hkeeps : Keeps directory h) (s : Service) :
    Answers s directory h (held directory h.disk) where
  get id := by
    rw [show Ledger.get id = (find id).bind _ from rfl, Procedure.run_bind, hkeeps.run_find]
    cases lookUp (held directory h.disk) id <;> rfl
  list := by
    have hask := hkeeps.ask_list
    rw [show list = (Procedure.query .requests .list).bind _ from rfl, Procedure.run_bind,
      Procedure.query, Procedure.run, Host.reply, hask]
    cases held directory h.disk <;> rfl
  approve approval hcheck := by
    rw [approve, hcheck]
    change ((Procedure.ensuring ((find approval.requestId).bind
      (settle s.authority.sign approval)) _).run Host.reply h).1 = _
    rw [Procedure.run_ensuring, Procedure.run_bind, hkeeps.run_find]
    cases lookUp (held directory h.disk) approval.requestId <;> rfl
  reopen := FileTable.openAt_of_hasDirectory hkeeps.opened

end Ledger

end CertAuthority
