import CertAuthority.Crypto.Hash
import CertAuthority.Crypto.Modular

/-!
# RSA signatures

PKCS #1 version 1.5 signing and verification, and verification of PSS with a salt as long as
the hash.
-/

namespace CertAuthority.Rsa

structure PublicKey where
  modulus : Nat
  exponent : Nat
  deriving Repr, DecidableEq, Inhabited

structure PrivateKey where
  modulus : Nat
  publicExponent : Nat
  privateExponent : Nat
  deriving Repr, DecidableEq, Inhabited

def PrivateKey.publicKey (k : PrivateKey) : PublicKey :=
  ⟨k.modulus, k.publicExponent⟩

def modulusBits (n : Nat) : Nat :=
  if n = 0 then 0 else Nat.log2 n + 1

/-- The length of a signature in bytes. -/
def PublicKey.size (k : PublicKey) : Nat :=
  Bytes.byteCount k.modulus

/-- A key that verification accepts: a modulus of at least `least` bits, counted in whole bytes,
and at most 8192 bits, and an odd exponent from 3 up to 33 bits. -/
def PublicKey.isAcceptable (k : PublicKey) (least : Nat) : Bool :=
  least ≤ 8 * k.size ∧ modulusBits k.modulus ≤ 8192 ∧ k.modulus % 2 = 1 ∧ 3 ≤ k.exponent ∧
    k.exponent % 2 = 1 ∧ k.exponent < Nat.pow 2 33

/-- What stands before the digest in a signed block and names the hash. -/
def digestLabel : HashAlgorithm → Bytes
  | .sha1 => [0x30, 0x21, 0x30, 0x09, 0x06, 0x05, 0x2b, 0x0e, 0x03, 0x02, 0x1a, 0x05, 0x00, 0x04, 0x14]
  | .sha256 =>
    [0x30, 0x31, 0x30, 0x0d, 0x06, 0x09, 0x60, 0x86, 0x48, 0x01, 0x65, 0x03, 0x04, 0x02, 0x01, 0x05, 0x00,
      0x04, 0x20]
  | .sha384 =>
    [0x30, 0x41, 0x30, 0x0d, 0x06, 0x09, 0x60, 0x86, 0x48, 0x01, 0x65, 0x03, 0x04, 0x02, 0x02, 0x05, 0x00,
      0x04, 0x30]
  | .sha512 =>
    [0x30, 0x51, 0x30, 0x0d, 0x06, 0x09, 0x60, 0x86, 0x48, 0x01, 0x65, 0x03, 0x04, 0x02, 0x03, 0x05, 0x00,
      0x04, 0x40]

/-- The signed block of a message, `size` bytes long: zero, one, padding, zero, label, digest. -/
def signedBlock (hash : HashAlgorithm) (size : Nat) (message : Bytes) : Bytes :=
  let tail := digestLabel hash ++ hash.digest message
  [0, 1] ++ List.replicate (size - 3 - tail.length) 0xFF ++ 0 :: tail

def sign (key : PrivateKey) (hash : HashAlgorithm) (message : Bytes) : Bytes :=
  let size := key.publicKey.size
  Bytes.ofNat size
    (Modular.pow (Bytes.toNat (signedBlock hash size message)) key.privateExponent key.modulus)

/-- The block that a signature opens to, if its length and value fit the key. -/
def opened (key : PublicKey) (signature : Bytes) : Option Bytes :=
  let s := Bytes.toNat signature
  if signature.length = key.size ∧ s < key.modulus then
    some (Bytes.ofNat key.size (Modular.pow s key.exponent key.modulus))
  else none

def verify (key : PublicKey) (hash : HashAlgorithm) (message signature : Bytes) : Bool :=
  match opened key signature with
  | some block => block = signedBlock hash key.size message
  | none => false

/-- The mask generation function over a hash. -/
def mask (hash : HashAlgorithm) (seed : Bytes) (size : Nat) : Bytes :=
  let count := (size + hash.size - 1) / hash.size
  ((List.range count).flatMap fun i => hash.digest (seed ++ Bytes.ofNat 4 i)).take size

/-- Verifies a probabilistic signature. -/
def verifyPss (key : PublicKey) (hash : HashAlgorithm) (message signature : Bytes) : Bool :=
  match opened key signature with
  | none => false
  | some block =>
    let emBits := modulusBits key.modulus - 1
    let emLength := (emBits + 7) / 8
    let em := block.drop (block.length - emLength)
    let spare := 8 * emLength - emBits
    let maskLength := emLength - hash.size - 1
    let masked := em.take maskLength
    let h := (em.drop maskLength).take hash.size
    let db := Bytes.xor masked (mask hash h maskLength)
    let db := match db with
      | [] => []
      | b :: rest => UInt8.ofNat (b.toNat % Nat.pow 2 (8 - spare)) :: rest
    let zeros := maskLength - hash.size - 1
    let salt := db.drop (zeros + 1)
    decide (2 * hash.size + 2 ≤ emLength) &&
      (block.take (block.length - emLength)).all (· = 0) &&
      em.getLast? == some (0xBC : UInt8) &&
      (masked.headD 0).toNat < Nat.pow 2 (8 - spare) &&
      (db.take zeros).all (· = 0) &&
      (db.drop zeros).head? == some (1 : UInt8) &&
      h == hash.digest (List.replicate 8 0 ++ hash.digest message ++ salt)

end CertAuthority.Rsa
