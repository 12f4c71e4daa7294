import CertAuthority.X509.Certificate

/-!
# Trust in a client's certificate

A client's certificate is trusted if an authority that is known beforehand signed it, if it is
valid now, and if it may be used by clients.  Here certificates are read strictly: every
length in its shortest form, nothing behind the certificate, and nothing between the parts.
-/

namespace CertAuthority.X509

/-- What is read of a certificate, as it stands in it. -/
structure StrictCertificate where
  serial : Bytes
  /-- The content of the algorithm's sequence. -/
  algorithm : Bytes
  issuer : Bytes
  validity : Bytes
  subject : Bytes
  publicKey : Bytes
  basicConstraints : Option Bytes
  purposes : Option Bytes
  body : Bytes
  signature : Bytes
  deriving Repr, DecidableEq, Inhabited

namespace StrictCertificate

def expect (identifier : UInt8) (input : Bytes) : Option (Bytes × Bytes) :=
  match Asn1.Element.readStrict input with
  | some (e, rest) => if e.identifier = identifier then some (e.content, rest) else none
  | none => none

/-- Reads an element whose content `inner` uses up. -/
def nested {α : Type} (identifier : UInt8) (inner : Bytes → Option (α × Bytes)) (input : Bytes) :
    Option (α × Bytes) :=
  match expect identifier input with
  | some (content, rest) =>
    match inner content with
    | some (a, []) => some (a, rest)
    | _ => none
  | none => none

def readFlag (input : Bytes) : Option (Bool × Bytes) :=
  if input.head? = some Asn1.boolean then
    match expect Asn1.boolean input with
    | some ([b], rest) =>
      if b = 0xFF then some (true, rest) else if b = 0 then some (false, rest) else none
    | _ => none
  else some (false, input)

def readExtension (input : Bytes) : Option (Extension × Bytes) :=
  nested Asn1.sequence (fun content => do
    let (oid, content) ← expect Asn1.objectIdentifier content
    let (critical, content) ← readFlag content
    let (value, content) ← expect Asn1.octetString content
    return (⟨⟨oid⟩, critical, value⟩, content)) input

/-- The types of extension that are looked into. -/
def examined : List Oid :=
  [Oid.subjectAltName, Oid.basicConstraints, Oid.nameConstraints, Oid.extendedKeyUsage]

/-- Whether the extensions can be accepted: an unknown one is not critical, and one that is
looked into occurs once and holds a sequence. -/
def areAcceptable (extensions : List Extension) : Bool :=
  extensions.all fun e =>
    if e.oid = Oid.keyUsage then true
    else if examined.contains e.oid then
      (extensions.filter (·.oid = e.oid)).length = 1 ∧
        (nested Asn1.sequence (fun content => some ((), content.drop content.length)) e.value).map
          (·.2) = some []
    else !e.critical

/-- The content of the sequence in the extension of a type. -/
def valueOf (extensions : List Extension) (oid : Oid) : Option Bytes :=
  (extensions.find? (·.oid = oid)).bind fun e => (expect Asn1.sequence e.value).map (·.1)

def readExtensions (input : Bytes) : Option (List Extension × Bytes) :=
  nested (Asn1.context 3)
    (nested Asn1.sequence fun content =>
      match Asn1.Element.all readExtension content with
      | some [] | none => none
      | some extensions => some (extensions, [])) input

/-- The parts that certificates of all versions have in common. -/
def readParts (algorithm content : Bytes) : Option (StrictCertificate × Bytes) := do
  let (serial, content) ← expect Asn1.integer content
  let (inner, content) ← expect Asn1.sequence content
  if inner ≠ algorithm then none
  let (issuer, content) ← expect Asn1.sequence content
  let (validity, content) ← expect Asn1.sequence content
  let (subject, content) ← expect Asn1.sequence content
  let (publicKey, content) ← expect Asn1.sequence content
  return ({ serial, algorithm, issuer, validity, subject, publicKey
            basicConstraints := none, purposes := none, body := [], signature := [] }, content)

/-- The signed part of a certificate of version three. -/
def readBody (algorithm content : Bytes) : Option StrictCertificate := do
  let (version, content) ← expect (Asn1.context 0) content
  if version ≠ [Asn1.integer, 1, 2] then none
  let (parts, content) ← readParts algorithm content
  let (extensions, content) ← readExtensions content
  if content.isEmpty ∧ areAcceptable extensions then
    return { parts with
      basicConstraints := valueOf extensions Oid.basicConstraints
      purposes := valueOf extensions Oid.extendedKeyUsage }
  else none

/-- The signed part of a certificate of version one. -/
def readOldBody (algorithm content : Bytes) : Option StrictCertificate := do
  let (parts, content) ← readParts algorithm content
  if content.isEmpty then return parts else none

/-- Signed part, algorithm and signature of a certificate. -/
def readSigned (input : Bytes) : Option (Asn1.Element × Bytes × Bytes) := do
  let (content, rest) ← expect Asn1.sequence input
  let (body, content) ← Asn1.Element.readStrict content
  let (algorithm, content) ← expect Asn1.sequence content
  let (bits, content) ← expect Asn1.bitString content
  match bits with
  | 0 :: signature =>
    if rest.isEmpty ∧ content.isEmpty ∧ body.identifier = Asn1.sequence then
      return (body, algorithm, signature)
    else none
  | _ => none

/-- A certificate of version three. -/
def read (input : Bytes) : Option StrictCertificate := do
  let (body, algorithm, signature) ← readSigned input
  let certificate ← readBody algorithm body.content
  return { certificate with body := body.encoded, signature }

/-- The certificate of an authority, which may be of version one. -/
def readAnchor (input : Bytes) : Option StrictCertificate := do
  let (body, algorithm, signature) ← readSigned input
  let certificate ←
    (readBody algorithm body.content).or (readOldBody algorithm body.content)
  return { certificate with body := body.encoded, signature }

/-- A client's serial number is a positive integer in its shortest form, of at most twenty
bytes without its sign. -/
def hasGoodSerial (c : StrictCertificate) : Bool :=
  match c.serial with
  | [] => false
  | [b] => 0 < b ∧ b < 0x80
  | 0 :: b :: rest => 0x80 ≤ b ∧ rest.length < 20
  | b :: rest => b < 0x80 ∧ rest.length < 20

/-- The certificate of a client. -/
def readClient (input : Bytes) : Option StrictCertificate :=
  (read input).filter hasGoodSerial

/-- Whether the certificate is valid in a given second. -/
def isValidAt (c : StrictCertificate) (seconds : Int) : Bool :=
  match CertificateDate.readStrict c.validity with
  | some (notBefore, rest) =>
    match CertificateDate.readStrict rest with
    | some (notAfter, []) =>
      notBefore.seconds ≤ notAfter.seconds ∧ notBefore.seconds ≤ seconds ∧
        seconds ≤ notAfter.seconds
    | _ => false
  | none => false

/-- Whether the certificate is not one of an authority. -/
def isLeaf (c : StrictCertificate) : Bool :=
  match c.basicConstraints with
  | none => true
  | some content =>
    match readFlag content with
    | some (false, []) => true
    | some (false, rest) =>
      match expect Asn1.integer rest with
      | some ([b], []) => b < 0x80
      | _ => false
    | _ => false

/-- Whether clients may use the certificate: it names no purposes, or this one among them. -/
def isForClients (c : StrictCertificate) : Bool :=
  match c.purposes with
  | none => true
  | some content =>
    (Asn1.Element.leading (expect Asn1.objectIdentifier) content).contains Oid.clientAuth.content

/-- The content of the sequence of an algorithm. -/
def algorithmOf (oid : Oid) (parameters : Bytes) : Bytes :=
  oid.encode ++ parameters

/-- The schemes under which a client's certificate may be signed, each with the exact forms of
the key's and the signature's algorithm. -/
def schemes : List (Bytes × Bytes × Scheme) :=
  let rsaKey := algorithmOf Oid.rsaEncryption Asn1.encodeNull
  let key256 := algorithmOf Oid.ecPublicKey Oid.curveP256.encode
  let key384 := algorithmOf Oid.ecPublicKey Oid.curveP384.encode
  let with256 := algorithmOf Oid.ecdsaWithSha256 []
  let with384 := algorithmOf Oid.ecdsaWithSha384 []
  [(key256, with256, .ecdsa .p256 .sha256), (key256, with384, .ecdsa .p256 .sha384),
    (key384, with256, .ecdsa .p384 .sha256), (key384, with384, .ecdsa .p384 .sha384),
    (algorithmOf Oid.ed25519 [], algorithmOf Oid.ed25519 [], .ed25519),
    (rsaKey, algorithmOf Oid.sha256WithRsa Asn1.encodeNull, .rsa .sha256 2048),
    (rsaKey, algorithmOf Oid.sha384WithRsa Asn1.encodeNull, .rsa .sha384 2048),
    (rsaKey, algorithmOf Oid.sha512WithRsa Asn1.encodeNull, .rsa .sha512 2048)]

/-- Whether an authority's key verifies the signature. -/
def isSignedBy (c anchor : StrictCertificate) : Bool :=
  match expect Asn1.sequence anchor.publicKey with
  | some (keyAlgorithm, rest) =>
    match expect Asn1.bitString rest with
    | some (0 :: key, []) =>
      match schemes.find? fun s => s.1 = keyAlgorithm ∧ s.2.1 = c.algorithm with
      | some (_, _, scheme) => scheme.verify .uncompressed key c.body c.signature
      | none => false
    | _ => false
  | none => false

/-- Whether a client's certificate is to be trusted in a given second. -/
def isTrusted (c anchor : StrictCertificate) (seconds : Int) : Bool :=
  c.isValidAt seconds && c.isLeaf && c.isForClients && decide (c.issuer = anchor.subject) &&
    c.isSignedBy anchor

end StrictCertificate

end CertAuthority.X509
