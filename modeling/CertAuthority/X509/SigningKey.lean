import CertAuthority.X509.Signature

/-!
# Private keys

The kinds of key that can sign, how they are read, the public key that belongs to each, and the
algorithm under which each signs.
-/

namespace CertAuthority.X509

/-- What a public key is for, as far as certificates written here name it. -/
inductive KeyAlgorithm where
  | rsa
  | ecdsa (curve : CurveName)
  | ed25519
  deriving Repr, DecidableEq, Inhabited

def curveOid : CurveName → Oid
  | .p256 => Oid.curveP256
  | .p384 => Oid.curveP384
  | .p521 => Oid.curveP521

namespace KeyAlgorithm

/-- The algorithm of a public key, with its parameters. -/
def encode : KeyAlgorithm → Bytes
  | .rsa => Asn1.encodeSequence [Oid.rsaEncryption.encode, Asn1.encodeNull]
  | .ecdsa curve => Asn1.encodeSequence [Oid.ecPublicKey.encode, (curveOid curve).encode]
  | .ed25519 => Asn1.encodeSequence [Oid.ed25519.encode]

/-- A public key with its algorithm. -/
def encodeKey (algorithm : KeyAlgorithm) (key : Bytes) : Bytes :=
  Asn1.encodeSequence [algorithm.encode, Asn1.encodeBits key]

end KeyAlgorithm

inductive SigningKey where
  | rsa (key : Rsa.PrivateKey)
  | ecdsa (curve : CurveName) (secret : Nat) (point : Nat × Nat)
  | ed25519 (seed : Bytes)
  deriving Repr, DecidableEq, Inhabited

namespace SigningKey

def algorithm : SigningKey → KeyAlgorithm
  | .rsa _ => .rsa
  | .ecdsa curve _ _ => .ecdsa curve
  | .ed25519 _ => .ed25519

/-- The bits of the public key. -/
def publicBits : SigningKey → Bytes
  | .rsa key => encodeRsaKey key.publicKey
  | .ecdsa curve _ point => curve.curve.encodePoint point.1 point.2
  | .ed25519 seed => Ed25519.publicKey seed

/-- The public key with its algorithm. -/
def publicInfo (key : SigningKey) : Bytes :=
  key.algorithm.encodeKey key.publicBits

/-- The hash that a curve's signatures are made over. -/
def hashOf : CurveName → HashAlgorithm
  | .p256 => .sha256
  | .p384 => .sha384
  | .p521 => .sha512

/-- The algorithm of the signatures that the key makes. -/
def signatureAlgorithm : SigningKey → Bytes
  | .rsa _ => Asn1.encodeSequence [Oid.sha256WithRsa.encode, Asn1.encodeNull]
  | .ecdsa .p256 _ _ => Asn1.encodeSequence [Oid.ecdsaWithSha256.encode]
  | .ecdsa .p384 _ _ => Asn1.encodeSequence [Oid.ecdsaWithSha384.encode]
  | .ecdsa .p521 _ _ => Asn1.encodeSequence [Oid.ecdsaWithSha512.encode]
  | .ed25519 _ => Asn1.encodeSequence [Oid.ed25519.encode]

/-- The signature of a message.  A curve's signature needs a random number, and one number in
very many gives none. -/
def sign? (key : SigningKey) (nonce : Nat) (message : Bytes) : Option Bytes :=
  match key with
  | .rsa key => some (Rsa.sign key .sha256 message)
  | .ecdsa curve secret _ =>
    (Ecdsa.sign? curve.curve secret ((hashOf curve).digest message) nonce).map fun (r, s) =>
      encodeEcdsaSignature r s
  | .ed25519 seed => some (Ed25519.sign seed message)

/-- A curve's key from its secret, if that is in range. -/
def ofSecret? (curve : CurveName) (secret : Nat) : Option SigningKey :=
  if secret = 0 ∨ curve.curve.n ≤ secret then none
  else (Ecdsa.publicPoint curve.curve secret).map (.ecdsa curve secret)

/-- A curve's key: version, secret, and perhaps the curve and the public point, which must be the
secret's. -/
def readCurveKey (curve : CurveName) (input : Bytes) : Option SigningKey := do
  let (content, rest) ← Asn1.Element.expect Asn1.sequence input
  let (version, content) ← Asn1.readNat content
  let (secret, content) ← Asn1.Element.expect Asn1.octetString content
  let (parameters, content) ← Asn1.Element.expectOptional (Asn1.context 0) content
  let (point, content) ← Asn1.Element.expectOptional (Asn1.context 1) content
  if version ≠ 1 ∨ !rest.isEmpty ∨ !content.isEmpty then none
  if parameters.any (· ≠ (curveOid curve).encode) then none
  let key ← ofSecret? curve (Bytes.toNat secret)
  match point with
  | none => return key
  | some bits => if (Asn1.readBits bits).map (·.1) = some key.publicBits then return key else none

/-- An RSA key: version zero, the numbers of the key, and the parts of its secret, which must
fit together. -/
def readRsaPrivateKey (input : Bytes) : Option SigningKey := do
  let (content, rest) ← Asn1.Element.expect Asn1.sequence input
  let numbers ← Asn1.Element.all Asn1.readNat content
  match numbers with
  | [0, n, e, d, p, q, dp, dq, qi] =>
    let bits := Rsa.modulusBits n
    if rest.isEmpty ∧ n = p * q ∧ 2048 ≤ bits ∧ bits ≤ 8192 ∧ e % 2 = 1 ∧ 3 ≤ e ∧
        d * e % (p - 1) = 1 ∧ d * e % (q - 1) = 1 ∧ dp = d % (p - 1) ∧ dq = d % (q - 1) ∧
        qi * q % p = 1 then
      return .rsa ⟨n, e, d⟩
    else none
  | _ => none

/-- A key behind the algorithm that it is for. -/
def readGeneralKey (input : Bytes) : Option SigningKey := do
  let (content, rest) ← Asn1.Element.expect Asn1.sequence input
  let (version, content) ← Asn1.readNat content
  let (algorithm, content) ← Algorithm.read content
  let (key, content) ← Asn1.Element.expect Asn1.octetString content
  let (_, content) ← Asn1.Element.expectOptional (Asn1.context 0) content
  let (point, content) ← Asn1.Element.expectOptional (Asn1.contextPrimitive 1) content
  if 1 < version ∨ !rest.isEmpty ∨ !content.isEmpty then none
  if algorithm.oid = Oid.rsaEncryption then readRsaPrivateKey key
  else if algorithm.oid = Oid.ed25519 then
    let (seed, rest) ← Asn1.Element.expect Asn1.octetString key
    if seed.length = 32 ∧ rest.isEmpty ∧
        !point.any (· ≠ 0 :: Ed25519.publicKey seed) then
      return .ed25519 seed
    else none
  else if algorithm.oid = Oid.ecPublicKey then
    let curve ← [CurveName.p256, .p384, .p521].find? fun c =>
      algorithm.parameterOid? = some (curveOid c)
    readCurveKey curve key
  else none

/-- The content of a sequence, whatever length it states. -/
def afterHeader : Bytes → Bytes
  | [] | [_] => []
  | _ :: l :: rest => if l < 0x80 then rest else rest.drop (l.toNat - 0x80)

/-- A key in any of three forms, which the first elements tell apart. -/
def read (input : Bytes) : Option SigningKey :=
  match afterHeader input with
  | 0x02 :: 0x01 :: version :: next :: _ =>
    if next = Asn1.sequence then readGeneralKey input
    else if version = 0 ∧ next = Asn1.integer then readRsaPrivateKey input
    else if version = 1 ∧ next = Asn1.octetString then
      [CurveName.p256, .p384, .p521].findSome? (readCurveKey · input)
    else none
  | _ => none

end SigningKey

end CertAuthority.X509
