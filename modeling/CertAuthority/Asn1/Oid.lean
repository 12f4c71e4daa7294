import CertAuthority.Asn1.Writer

/-!
# Object identifiers

An identifier is kept as its DER content; two are equal when these bytes are.
-/

namespace CertAuthority

structure Oid where
  content : Bytes
  deriving Repr, DecidableEq, Inhabited

namespace Oid

/-- The base-128 digits of a component, most significant first, all but the last marked. -/
def componentBytes (n : Nat) : Bytes :=
  let rec go (fuel n : Nat) (tail : Bytes) : Bytes :=
    match fuel with
    | 0 => tail
    | fuel + 1 =>
      if n = 0 then tail else go fuel (n / 128) (UInt8.ofNat (0x80 + n % 128) :: tail)
  go (Nat.log2 n + 1) (n / 128) [UInt8.ofNat (n % 128)]

/-- The identifier with these components, of which there are at least two. -/
def ofComponents : List Nat → Oid
  | a :: b :: rest => ⟨componentBytes (a * 40 + b) ++ rest.flatMap componentBytes⟩
  | _ => ⟨[]⟩

/-- The components after the first two, given what is read of the current one. -/
def componentsFrom (current : Nat) : Bytes → List Nat
  | [] => []
  | b :: rest =>
    let n := current * 128 + b.toNat % 128
    if 0x80 ≤ b then componentsFrom n rest else n :: componentsFrom 0 rest

/-- All components; the first byte gives two of them. -/
def components (oid : Oid) : List Nat :=
  match oid.content with
  | [] => []
  | b :: rest => b.toNat / 40 :: b.toNat % 40 :: componentsFrom 0 rest

/-- The components in decimal with points between them. -/
def text (oid : Oid) : String :=
  ".".intercalate (oid.components.map toString)

/-- An identifier is not empty and ends with the end of a component. -/
def ofContent? (content : Bytes) : Option Oid :=
  match content.getLast? with
  | some b => if b < 0x80 then some ⟨content⟩ else none
  | none => none

def read (input : Bytes) : Option (Oid × Bytes) :=
  match Asn1.Element.expect Asn1.objectIdentifier input with
  | some (content, rest) => (ofContent? content).map fun oid => (oid, rest)
  | none => none

def encode (oid : Oid) : Bytes :=
  Asn1.encode Asn1.objectIdentifier oid.content

def commonName : Oid := ofComponents [2, 5, 4, 3]
def serialNumber : Oid := ofComponents [2, 5, 4, 5]
def country : Oid := ofComponents [2, 5, 4, 6]
def locality : Oid := ofComponents [2, 5, 4, 7]
def state : Oid := ofComponents [2, 5, 4, 8]
def organization : Oid := ofComponents [2, 5, 4, 10]
def organizationalUnit : Oid := ofComponents [2, 5, 4, 11]
def title : Oid := ofComponents [2, 5, 4, 12]
def emailAddress : Oid := ofComponents [1, 2, 840, 113549, 1, 9, 1]
def domainComponent : Oid := ofComponents [0, 9, 2342, 19200300, 100, 1, 25]
def userId : Oid := ofComponents [0, 9, 2342, 19200300, 100, 1, 1]

def rsaEncryption : Oid := ofComponents [1, 2, 840, 113549, 1, 1, 1]
def sha1WithRsa : Oid := ofComponents [1, 2, 840, 113549, 1, 1, 5]
def sha1WithRsaOld : Oid := ofComponents [1, 3, 14, 3, 2, 29]
def rsaPss : Oid := ofComponents [1, 2, 840, 113549, 1, 1, 10]
def sha256WithRsa : Oid := ofComponents [1, 2, 840, 113549, 1, 1, 11]
def sha384WithRsa : Oid := ofComponents [1, 2, 840, 113549, 1, 1, 12]
def sha512WithRsa : Oid := ofComponents [1, 2, 840, 113549, 1, 1, 13]
def ecPublicKey : Oid := ofComponents [1, 2, 840, 10045, 2, 1]
def curveP256 : Oid := ofComponents [1, 2, 840, 10045, 3, 1, 7]
def curveP384 : Oid := ofComponents [1, 3, 132, 0, 34]
def curveP521 : Oid := ofComponents [1, 3, 132, 0, 35]
def ecdsaWithSha256 : Oid := ofComponents [1, 2, 840, 10045, 4, 3, 2]
def ecdsaWithSha384 : Oid := ofComponents [1, 2, 840, 10045, 4, 3, 3]
def ecdsaWithSha512 : Oid := ofComponents [1, 2, 840, 10045, 4, 3, 4]
def ed25519 : Oid := ofComponents [1, 3, 101, 112]
def sha256 : Oid := ofComponents [2, 16, 840, 1, 101, 3, 4, 2, 1]
def sha384 : Oid := ofComponents [2, 16, 840, 1, 101, 3, 4, 2, 2]
def sha512 : Oid := ofComponents [2, 16, 840, 1, 101, 3, 4, 2, 3]

def challengePassword : Oid := ofComponents [1, 2, 840, 113549, 1, 9, 7]
def extensionRequest : Oid := ofComponents [1, 2, 840, 113549, 1, 9, 14]
def subjectKeyIdentifier : Oid := ofComponents [2, 5, 29, 14]
def keyUsage : Oid := ofComponents [2, 5, 29, 15]
def subjectAltName : Oid := ofComponents [2, 5, 29, 17]
def basicConstraints : Oid := ofComponents [2, 5, 29, 19]
def nameConstraints : Oid := ofComponents [2, 5, 29, 30]
def authorityKeyIdentifier : Oid := ofComponents [2, 5, 29, 35]
def extendedKeyUsage : Oid := ofComponents [2, 5, 29, 37]
def anyExtendedKeyUsage : Oid := ofComponents [2, 5, 29, 37, 0]
def serverAuth : Oid := ofComponents [1, 3, 6, 1, 5, 5, 7, 3, 1]
def clientAuth : Oid := ofComponents [1, 3, 6, 1, 5, 5, 7, 3, 2]
def codeSigning : Oid := ofComponents [1, 3, 6, 1, 5, 5, 7, 3, 3]
def emailProtection : Oid := ofComponents [1, 3, 6, 1, 5, 5, 7, 3, 4]
def timeStamping : Oid := ofComponents [1, 3, 6, 1, 5, 5, 7, 3, 8]
def ocspSigning : Oid := ofComponents [1, 3, 6, 1, 5, 5, 7, 3, 9]

end Oid

end CertAuthority
