import CertAuthority.Csr.Validated
import CertAuthority.X509.SigningKey

/-!
# Making a certification request

The request that an agent sends: its Common Name, perhaps the unit that says what kind of agent
it is, and a fresh key.
-/

namespace CertAuthority.Csr

open X509

/-- The subject of an agent's request. -/
def subjectOf (commonName : String) (unit : Option String) : Name :=
  Name.mk <|
    [⟨Oid.commonName, Asn1.utf8String, Bytes.ofString commonName⟩] ::
      match unit with
      | some unit => [[⟨Oid.organizationalUnit, Asn1.utf8String, Bytes.ofString unit⟩]]
      | none => []

/-- The signed part of a request without attributes. -/
def encodeInfo (subject : Name) (key : SigningKey) : Bytes :=
  Asn1.encodeSequence
    [Asn1.encodeNat 0, subject.encode, key.publicInfo, Asn1.encode (Asn1.context 0) []]

/-- The request for a subject, signed with the key that it is for. -/
def generate (key : SigningKey) (nonce : Nat) (commonName : String) (unit : Option String) :
    Except CaError String :=
  let info := encodeInfo (subjectOf commonName unit) key
  match key.sign? nonce info with
  | none => .error (.internal "Failed to serialize CSR")
  | some signature =>
    .ok (Pem.encodeUnix tag
      (Asn1.encodeSequence [info, key.signatureAlgorithm, Asn1.encodeBits signature]))

/-- A key on the curve P-256 from random bytes. -/
def freshKey (random : Bytes) : Except CaError SigningKey :=
  match SigningKey.ofSecret? .p256 (Bytes.toNat random % (Curve.p256.n - 1) + 1) with
  | some key => .ok key
  | none => .error (.internal "Failed to generate key pair")

end CertAuthority.Csr
