import CertAuthority.Json.Codec
import CertAuthority.Subject.CommonName

/-!
# Subject identities

The identity of an agent: its Common Name, taken apart into host and user, and the unit that
says what kind of agent it is.
-/

namespace CertAuthority

structure SubjectIdentity where
  commonName : String
  organizationalUnit : Option String
  hostname : String
  username : String
  deriving Repr, DecidableEq, Inhabited

namespace SubjectIdentity

open Json (Codec Reader Fields)

def ofParts (commonName : String) (organizationalUnit : Option String) :
    Except IdentityError SubjectIdentity :=
  match CommonName.parse commonName with
  | .ok (hostname, username) => .ok ⟨commonName, organizationalUnit, hostname, username⟩
  | .error e => .error e

/-- The kind of agent, which must not be empty. -/
def requireUsertype (identity : SubjectIdentity) : Except IdentityError String :=
  match identity.organizationalUnit with
  | some unit => if unit = "" then .error (.missingAttribute "OU") else .ok unit
  | none => .error (.missingAttribute "OU")

/-- The Common Name put together again from its parts. -/
def canonical (identity : SubjectIdentity) : String :=
  CommonName.render identity.hostname identity.username

def display (identity : SubjectIdentity) : String :=
  match identity.organizationalUnit with
  | some unit => "CN=" ++ identity.commonName ++ ", OU=" ++ unit
  | none => "CN=" ++ identity.commonName

def toJson (identity : SubjectIdentity) : Json :=
  .object [
    ("common_name", .string identity.commonName),
    ("organizational_unit", Json.text? identity.organizationalUnit),
    ("hostname", .string identity.hostname),
    ("username", .string identity.username)]

def fieldNames : List String :=
  ["common_name", "organizational_unit", "hostname", "username"]

def read : Reader SubjectIdentity := fun level t => do
  let f ← Fields.read fieldNames false level t
  return {
    commonName := ← f.required "common_name" Reader.text
    organizationalUnit := ← f.optional "organizational_unit" Reader.text
    hostname := ← f.required "hostname" Reader.text
    username := ← f.required "username" Reader.text }

instance : Codec SubjectIdentity := ⟨toJson, read⟩

end SubjectIdentity

end CertAuthority
