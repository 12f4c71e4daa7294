/-!
# Byte strings

Everything that is signed, hashed or stored is a list of bytes.  This module holds the
conversions between byte strings, natural numbers (big-endian) and UTF-8 text.
-/

namespace CertAuthority

abbrev Bytes := List UInt8

namespace Bytes

/-- The natural number that a byte string denotes, most significant byte first. -/
def toNat (bytes : Bytes) : Nat :=
  bytes.foldl (fun n b => n * 256 + b.toNat) 0

/-- The low `8 * width` bits of `n` as exactly `width` bytes, most significant first. -/
def ofNat (width n : Nat) : Bytes :=
  match width with
  | 0 => []
  | w + 1 => UInt8.ofNat (n / Nat.pow 256 w % 256) :: ofNat w n

/-- The number of bytes in the shortest big-endian form of `n`; zero takes none. -/
def byteCount (n : Nat) : Nat :=
  if n = 0 then 0 else Nat.log2 n / 8 + 1

/-- The shortest big-endian form of `n`; zero is the empty string. -/
def ofNatMinimal (n : Nat) : Bytes :=
  ofNat (byteCount n) n

/-- Bytewise exclusive or, as long as the shorter argument. -/
def xor (a b : Bytes) : Bytes :=
  a.zipWith (· ^^^ ·) b

/-- The UTF-8 form of a text. -/
def ofString (s : String) : Bytes :=
  s.toList.flatMap String.utf8EncodeChar

/-- The low six bits of a continuation byte, if it is one. -/
def continuation (b : UInt8) : Option Nat :=
  if 0x80 ≤ b ∧ b ≤ 0xBF then some (b.toNat - 0x80) else none

/-- The characters of a UTF-8 string; nothing if it is not well formed.  Overlong forms,
surrogates and values past U+10FFFF are not well formed. -/
def decodeUtf8 : Bytes → Option (List Char)
  | [] => some []
  | b :: rest =>
    if b < 0x80 then
      (decodeUtf8 rest).map (Char.ofNat b.toNat :: ·)
    else if b < 0xC2 then none
    else if b < 0xE0 then
      match rest with
      | c :: rest => do
        let x ← continuation c
        let tail ← decodeUtf8 rest
        return Char.ofNat ((b.toNat - 0xC0) * 64 + x) :: tail
      | [] => none
    else if b < 0xF0 then
      match rest with
      | c :: d :: rest => do
        let x ← continuation c
        let y ← continuation d
        let code := (b.toNat - 0xE0) * 4096 + x * 64 + y
        if code < 0x800 ∨ (0xD800 ≤ code ∧ code ≤ 0xDFFF) then none
        let tail ← decodeUtf8 rest
        return Char.ofNat code :: tail
      | _ => none
    else if b < 0xF5 then
      match rest with
      | c :: d :: e :: rest => do
        let x ← continuation c
        let y ← continuation d
        let z ← continuation e
        let code := (b.toNat - 0xF0) * 262144 + x * 4096 + y * 64 + z
        if code < 0x10000 ∨ 0x110000 ≤ code then none
        let tail ← decodeUtf8 rest
        return Char.ofNat code :: tail
      | _ => none
    else none

/-- The text whose UTF-8 form is `bytes`, if there is one. -/
def toString? (bytes : Bytes) : Option String :=
  (decodeUtf8 bytes).map String.ofList

/-- Text whose bytes are all below 128. -/
def isAscii (bytes : Bytes) : Bool :=
  bytes.all (· < 0x80)

theorem length_ofNat (width n : Nat) : (ofNat width n).length = width := by
  induction width with
  | zero => rfl
  | succ w ih => simp [ofNat, ih]

end Bytes

end CertAuthority
