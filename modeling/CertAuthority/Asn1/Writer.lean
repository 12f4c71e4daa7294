import CertAuthority.Asn1.Element

/-!
# Writing DER

Every element is written with the shortest form of its length.
-/

namespace CertAuthority.Asn1

/-- A length has at most 64 bits.  The byte that no length starts with stands for a longer one. -/
def encodeLength (n : Nat) : Bytes :=
  if n < 0x80 then [UInt8.ofNat n]
  else if n < Nat.pow 2 64 then
    let digits := Bytes.ofNatMinimal n
    UInt8.ofNat (0x80 + digits.length) :: digits
  else [0xFF]

def encode (identifier : UInt8) (content : Bytes) : Bytes :=
  identifier :: encodeLength content.length ++ content

def encodeSequence (parts : List Bytes) : Bytes :=
  encode sequence parts.flatten

/-- A non-negative number from its big-endian bytes: leading zeros go, and one is put in front
when the top bit is set. -/
def encodeUnsigned (bytes : Bytes) : Bytes :=
  let digits := bytes.dropWhile (· = 0)
  encode integer <|
    match digits with
    | [] => [0]
    | b :: _ => if 0x80 ≤ b then 0 :: digits else digits

def encodeNat (n : Nat) : Bytes :=
  encodeUnsigned (Bytes.ofNatMinimal n)

/-- A string of whole bytes as bits. -/
def encodeBits (bytes : Bytes) : Bytes :=
  encode bitString (0 :: bytes)

def encodeNull : Bytes :=
  encode null []

def encodeTrue : Bytes :=
  encode boolean [0xFF]

end CertAuthority.Asn1
