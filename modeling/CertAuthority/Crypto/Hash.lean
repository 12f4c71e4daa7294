import CertAuthority.Bytes.Base64
import CertAuthority.Crypto.Sha

/-!
# Hash functions by name
-/

namespace CertAuthority

inductive HashAlgorithm where
  | sha1
  | sha256
  | sha384
  | sha512
  deriving Repr, DecidableEq, Inhabited

namespace HashAlgorithm

def digest : HashAlgorithm → Bytes → Bytes
  | .sha1 => Sha1.digest
  | .sha256 => Sha2.sha256
  | .sha384 => Sha2.sha384
  | .sha512 => Sha2.sha512

/-- The length of a digest in bytes. -/
def size : HashAlgorithm → Nat
  | .sha1 => 20
  | .sha256 => 32
  | .sha384 => 48
  | .sha512 => 64

end HashAlgorithm

/-- The fingerprint of a certificate: its SHA-256 in base64. -/
def fingerprint (der : Bytes) : String :=
  String.ofList (Base64.encode (Sha2.sha256 der))

end CertAuthority
