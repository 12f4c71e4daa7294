import CertAuthority.Asn1.Oid
import CertAuthority.Crypto.Rsa

/-!
# Algorithms and public keys
-/

namespace CertAuthority.X509

/-- An algorithm with its parameters, if there are any. -/
structure Algorithm where
  oid : Oid
  parameters : Option Asn1.Element
  deriving Repr, DecidableEq, Inhabited

namespace Algorithm

def read (input : Bytes) : Option (Algorithm × Bytes) := do
  let (content, rest) ← Asn1.Element.expect Asn1.sequence input
  let (oid, content) ← Oid.read content
  return (⟨oid, (Asn1.Element.read content).map (·.1)⟩, rest)

/-- The parameters as an object identifier. -/
def parameterOid? (a : Algorithm) : Option Oid :=
  match a.parameters with
  | some e => if e.identifier = Asn1.objectIdentifier then Oid.ofContent? e.content else none
  | none => none

end Algorithm

/-- A public key with the algorithm it is for. -/
structure PublicKeyInfo where
  algorithm : Algorithm
  key : Bytes
  encoded : Bytes
  deriving Repr, DecidableEq, Inhabited

namespace PublicKeyInfo

def read (input : Bytes) : Option (PublicKeyInfo × Bytes) := do
  let (e, rest) ← Asn1.Element.read input
  if e.identifier ≠ Asn1.sequence then none
  let (algorithm, content) ← Algorithm.read e.content
  let (key, _) ← Asn1.readBits content
  return (⟨algorithm, key, e.encoded⟩, rest)

end PublicKeyInfo

/-- Modulus and exponent of an RSA key, as the contents of their integers. -/
def readRsaIntegers (key : Bytes) : Option (Bytes × Bytes) := do
  let (content, _) ← Asn1.Element.expect Asn1.sequence key
  let (modulus, content) ← Asn1.Element.expect Asn1.integer content
  let (exponent, _) ← Asn1.Element.expect Asn1.integer content
  return (modulus, exponent)

/-- An RSA key whose numbers are positive and in their shortest form, with nothing behind. -/
def readRsaKey (key : Bytes) : Option Rsa.PublicKey := do
  let (content, rest) ← Asn1.Element.expect Asn1.sequence key
  let (modulus, content) ← Asn1.readNat content
  let (exponent, content) ← Asn1.readNat content
  if rest.isEmpty ∧ content.isEmpty then return ⟨modulus, exponent⟩ else none

def encodeRsaKey (key : Rsa.PublicKey) : Bytes :=
  Asn1.encodeSequence [Asn1.encodeNat key.modulus, Asn1.encodeNat key.exponent]

end CertAuthority.X509
