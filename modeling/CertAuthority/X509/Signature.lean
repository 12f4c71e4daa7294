import CertAuthority.Crypto.Curve
import CertAuthority.Crypto.Edwards
import CertAuthority.X509.Key

/-!
# Signatures under a public key

Which scheme a signature algorithm names, and whether a signature verifies.  The algorithm's
identifier alone chooses the scheme; of the key only its bits count and, for a curve, the
curve that its parameters name.
-/

namespace CertAuthority.X509

/-- The forms in which a point of a curve may be given. -/
inductive PointForms where
  | uncompressed
  | any
  deriving Repr, DecidableEq

/-- A way to verify signatures. -/
inductive Scheme where
  | rsa (hash : HashAlgorithm) (leastBits : Nat)
  | rsaPss (hash : HashAlgorithm)
  | ecdsa (curve : CurveName) (hash : HashAlgorithm)
  | ed25519
  deriving Repr, DecidableEq

/-- The curve that a key's parameters name. -/
def keyCurve? (key : Algorithm) : Option CurveName :=
  match key.parameterOid? with
  | some oid =>
    if oid = Oid.curveP256 then some .p256 else if oid = Oid.curveP384 then some .p384 else none
  | none => none

/-- The hash that the parameters of a probabilistic signature name. -/
def pssHash? (a : Algorithm) : Option HashAlgorithm := do
  let e ← a.parameters
  if e.identifier ≠ Asn1.sequence then none
  let (field, _) ← Asn1.Element.expect (Asn1.context 0) e.content
  let (hash, _) ← Algorithm.read field
  if hash.oid = Oid.sha256 then some .sha256
  else if hash.oid = Oid.sha384 then some .sha384
  else if hash.oid = Oid.sha512 then some .sha512
  else none

/-- The scheme of a signature made with `algorithm` under a key for `keyAlgorithm`. -/
def scheme? (keyAlgorithm algorithm : Algorithm) : Option Scheme :=
  let oid := algorithm.oid
  if oid = Oid.sha1WithRsa ∨ oid = Oid.sha1WithRsaOld then some (.rsa .sha1 1024)
  else if oid = Oid.sha256WithRsa then some (.rsa .sha256 2048)
  else if oid = Oid.sha384WithRsa then some (.rsa .sha384 2048)
  else if oid = Oid.sha512WithRsa then some (.rsa .sha512 2048)
  else if oid = Oid.rsaPss then (pssHash? algorithm).map .rsaPss
  else if oid = Oid.ecdsaWithSha256 then (keyCurve? keyAlgorithm).map (.ecdsa · .sha256)
  else if oid = Oid.ecdsaWithSha384 then (keyCurve? keyAlgorithm).map (.ecdsa · .sha384)
  else if oid = Oid.ed25519 then some .ed25519
  else none

def encodeEcdsaSignature (r s : Nat) : Bytes :=
  Asn1.encodeSequence [Asn1.encodeNat r, Asn1.encodeNat s]

/-- The two numbers of a signature in its one DER form. -/
def readEcdsaSignature (signature : Bytes) : Option (Nat × Nat) := do
  let (content, _) ← Asn1.Element.expect Asn1.sequence signature
  let (r, content) ← Asn1.readNat content
  let (s, _) ← Asn1.readNat content
  if encodeEcdsaSignature r s = signature then return (r, s) else none

def readPoint (forms : PointForms) (curve : Curve) (key : Bytes) : Option (Nat × Nat) :=
  match forms with
  | .uncompressed => curve.decodeUncompressed key
  | .any => curve.decodePoint key

/-- An RSA key in its one DER form. -/
def readCanonicalRsaKey (key : Bytes) : Option Rsa.PublicKey :=
  match readRsaKey key with
  | some k => if encodeRsaKey k = key then some k else none
  | none => none

/-- Whether a signature of a message verifies under the bits of a key. -/
def Scheme.verify (scheme : Scheme) (forms : PointForms) (key message signature : Bytes) : Bool :=
  match scheme with
  | .rsa hash least =>
    match readCanonicalRsaKey key with
    | some k => k.isAcceptable least && Rsa.verify k hash message signature
    | none => false
  | .rsaPss hash =>
    match readCanonicalRsaKey key with
    | some k => k.isAcceptable 2048 && Rsa.verifyPss k hash message signature
    | none => false
  | .ecdsa name hash =>
    match readPoint forms name.curve key, readEcdsaSignature signature with
    | some point, some (r, s) => Ecdsa.verify name.curve point (hash.digest message) r s
    | _, _ => false
  | .ed25519 => Ed25519.verify key message signature

/-- Whether `signature` signs `message` with `algorithm` under `key`. -/
def verifies (forms : PointForms) (key : PublicKeyInfo) (algorithm : Algorithm)
    (message signature : Bytes) : Bool :=
  match scheme? key.algorithm algorithm with
  | some scheme => scheme.verify forms key.key message signature
  | none => false

end CertAuthority.X509
