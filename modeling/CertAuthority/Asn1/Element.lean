import CertAuthority.Bytes.Basic

/-!
# DER elements

An element is an identifier byte, a length and the content.  Reading accepts every definite
length, also one that is written longer than needed; `readStrict` accepts only the shortest
form of lengths below 65536.  Identifiers of more than one byte are not read.
-/

namespace CertAuthority.Asn1

/-- Identifier bytes. -/
def boolean : UInt8 := 0x01
def integer : UInt8 := 0x02
def bitString : UInt8 := 0x03
def octetString : UInt8 := 0x04
def null : UInt8 := 0x05
def objectIdentifier : UInt8 := 0x06
def utf8String : UInt8 := 0x0C
def numericString : UInt8 := 0x12
def printableString : UInt8 := 0x13
def teletexString : UInt8 := 0x14
def ia5String : UInt8 := 0x16
def utcTime : UInt8 := 0x17
def generalizedTime : UInt8 := 0x18
def universalString : UInt8 := 0x1C
def bmpString : UInt8 := 0x1E
def sequence : UInt8 := 0x30
def set : UInt8 := 0x31

/-- The identifier of a constructed element with a context-specific tag. -/
def context (n : Nat) : UInt8 := UInt8.ofNat (0xA0 + n)

/-- The identifier of a primitive element with a context-specific tag. -/
def contextPrimitive (n : Nat) : UInt8 := UInt8.ofNat (0x80 + n)

structure Element where
  identifier : UInt8
  content : Bytes
  /-- The element as it stood in the input, identifier and length included. -/
  encoded : Bytes
  deriving Repr, DecidableEq, Inhabited

namespace Element

/-- A length in any definite form of at most 64 bits. -/
def readLength : Bytes → Option (Nat × Bytes)
  | [] => none
  | b :: rest =>
    if b < 0x80 then some (b.toNat, rest)
    else if b = 0x80 ∨ b = 0xFF then none
    else
      let count := b.toNat - 0x80
      let n := Bytes.toNat (rest.take count)
      if rest.length < count ∨ Nat.pow 2 64 ≤ n then none else some (n, rest.drop count)

/-- The element at the front of the input, and what follows it. -/
def read : Bytes → Option (Element × Bytes)
  | [] => none
  | identifier :: rest =>
    if identifier.toNat % 32 = 31 then none
    else
      match readLength rest with
      | none => none
      | some (n, body) =>
        if body.length < n then none
        else
          let headerSize := 1 + (rest.length - body.length)
          some (⟨identifier, body.take n, (identifier :: rest).take (headerSize + n)⟩, body.drop n)

/-- The shortest form of a length below 65536. -/
def readShortLength : Bytes → Option (Nat × Bytes)
  | b :: rest =>
    if b < 0x80 then some (b.toNat, rest)
    else
      match b, rest with
      | 0x81, l :: rest => if 0x80 ≤ l then some (l.toNat, rest) else none
      | 0x82, h :: l :: rest => if h ≠ 0 then some (h.toNat * 256 + l.toNat, rest) else none
      | _, _ => none
  | [] => none

/-- The element at the front of the input, if its length is in the shortest form. -/
def readStrict (input : Bytes) : Option (Element × Bytes) :=
  match read input, readShortLength input.tail with
  | some result, some _ => some result
  | _, _ => none

/-- Reads an element with a given identifier. -/
def expect (identifier : UInt8) (input : Bytes) : Option (Bytes × Bytes) :=
  match read input with
  | some (e, rest) => if e.identifier = identifier then some (e.content, rest) else none
  | none => none

/-- Reads an element with a given identifier if the input starts with it. -/
def expectOptional (identifier : UInt8) (input : Bytes) : Option (Option Bytes × Bytes) :=
  if input.head? = some identifier then
    (expect identifier input).map fun (content, rest) => (some content, rest)
  else some (none, input)

/-- As many items as can be read, and what is left. -/
def many {α : Type} (item : Bytes → Option (α × Bytes)) : Nat → Bytes → List α × Bytes
  | 0, input => ([], input)
  | fuel + 1, input =>
    match item input with
    | none => ([], input)
    | some (a, rest) =>
      let (items, rest) := many item fuel rest
      (a :: items, rest)

/-- Items up to the end of the input. -/
def all {α : Type} (item : Bytes → Option (α × Bytes)) (input : Bytes) : Option (List α) :=
  match many item (input.length + 1) input with
  | (items, []) => some items
  | _ => none

/-- Items at the front of the input; whatever follows them is ignored. -/
def leading {α : Type} (item : Bytes → Option (α × Bytes)) (input : Bytes) : List α :=
  (many item (input.length + 1) input).1

end Element

/-- A natural number in its shortest form. -/
def readNat (input : Bytes) : Option (Nat × Bytes) :=
  match Element.expect integer input with
  | some (content, rest) =>
    match content with
    | [] => none
    | [b] => if b < 0x80 then some (b.toNat, rest) else none
    | b :: c :: _ =>
      if 0x80 ≤ b ∨ (b = 0 ∧ c < 0x80) then none else some (Bytes.toNat content, rest)
  | none => none

/-- The bytes of a bit string.  The bits that its first byte declares unused must be zero. -/
def readBits (input : Bytes) : Option (Bytes × Bytes) :=
  match Element.expect bitString input with
  | some ([], _) => none
  | some ([unused], rest) => if unused = 0 then some ([], rest) else none
  | some (unused :: bits, rest) =>
    let last := (bits.getLast?.getD 0).toNat
    if unused.toNat ≤ 8 ∧ last % Nat.pow 2 unused.toNat = 0 then some (bits, rest) else none
  | none => none

end CertAuthority.Asn1
