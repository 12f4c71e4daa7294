import CertAuthority.Certificate.Json
import CertAuthority.Request.Json
import CertAuthority.Store.File
import CertAuthority.Store.Memory
import CertAuthority.Token.Json

/-!
# The four tables

Tokens, requests, certificates and revocations, each in a table of its own, all in memory or all
in files of one directory.
-/

namespace CertAuthority

inductive TableName where
  | tokens
  | requests
  | certificates
  | revocations
  deriving Repr, DecidableEq, Inhabited

namespace TableName

open Json (Codec)

/-- What the entries of a table hold. -/
@[reducible] def Row : TableName → Type
  | .tokens => BootstrapToken
  | .requests => CertificateRequest
  | .certificates => IssuedCertificate
  | .revocations => Revocation

instance codec : (name : TableName) → Codec name.Row
  | .tokens => inferInstanceAs (Codec BootstrapToken)
  | .requests => inferInstanceAs (Codec CertificateRequest)
  | .certificates => inferInstanceAs (Codec IssuedCertificate)
  | .revocations => inferInstanceAs (Codec Revocation)

def text : TableName → String
  | .tokens => "tokens"
  | .requests => "requests"
  | .certificates => "certificates"
  | .revocations => "revocations"

def ofText? : String → Option TableName
  | "tokens" => some .tokens
  | "requests" => some .requests
  | "certificates" => some .certificates
  | "revocations" => some .revocations
  | _ => none

/-- The tables in the order in which they are opened. -/
def all : List TableName :=
  [.tokens, .requests, .certificates, .revocations]

end TableName

/-- A table of either kind. -/
inductive Table (α : Type) where
  | memory (entries : MemoryTable α)
  | file (place : FileTable)

namespace Table

open Json (Codec)

variable {α : Type} [Codec α]

/-- Opens a table, which makes the directory of one in a file. -/
def openOn (t : Table α) (d : Disk) : Except CaError Unit × Disk :=
  match t with
  | .memory _ => (.ok (), d)
  | .file f =>
    let (opened, d) := FileTable.openAt α f.path d
    (opened.map fun _ => (), d)

/-- Answers a call. -/
def step (t : Table α) (nonce : Nat) (d : Disk) (call : TableCall α) :
    call.Reply × Table α × Disk :=
  match t with
  | .memory m =>
    let (reply, m) := m.step call
    (reply, .memory m, d)
  | .file f =>
    let (reply, d) := f.step nonce d call
    (reply, .file f, d)

end Table

structure Tables where
  tokens : Table BootstrapToken
  requests : Table CertificateRequest
  certificates : Table IssuedCertificate
  revocations : Table Revocation

namespace Tables

/-- Empty tables in memory. -/
def inMemory : Tables :=
  ⟨.memory .empty, .memory .empty, .memory .empty, .memory .empty⟩

/-- The table of a name in the files of a directory. -/
def fileOf (directory : String) (name : TableName) : FileTable :=
  ⟨Path.join directory (name.text ++ ".json")⟩

/-- Tables in the files of a directory. -/
def inFiles (directory : String) : Tables :=
  ⟨.file (fileOf directory .tokens), .file (fileOf directory .requests),
    .file (fileOf directory .certificates), .file (fileOf directory .revocations)⟩

/-- The table of a name. -/
def table (t : Tables) : (name : TableName) → Table name.Row
  | .tokens => t.tokens
  | .requests => t.requests
  | .certificates => t.certificates
  | .revocations => t.revocations

/-- The tables with another one of a name. -/
def set (t : Tables) : (name : TableName) → Table name.Row → Tables
  | .tokens, table => { t with tokens := table }
  | .requests, table => { t with requests := table }
  | .certificates, table => { t with certificates := table }
  | .revocations, table => { t with revocations := table }

/-- Opens some tables, in their order. -/
def openNames (t : Tables) : List TableName → Disk → Except CaError Unit × Disk
  | [], d => (.ok (), d)
  | name :: rest, d =>
    match (t.table name).openOn d with
    | (.error e, d) => (.error e, d)
    | (.ok (), d) => openNames t rest d

/-- Opens all tables. -/
def openAll (t : Tables) (d : Disk) : Except CaError Unit × Disk :=
  t.openNames TableName.all d

/-- Answers a call to a table. -/
def step (t : Tables) (nonce : Nat) (d : Disk) (name : TableName) (call : TableCall name.Row) :
    call.Reply × Tables × Disk :=
  let (reply, table, d) := (t.table name).step nonce d call
  (reply, t.set name table, d)

end Tables

end CertAuthority
