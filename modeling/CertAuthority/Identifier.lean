import CertAuthority.Bytes.Hex
import CertAuthority.Json.Codec
import CertAuthority.Subject.Identity

/-!
# Identifiers

Tokens, requests and certificates are named by texts that are made from random bytes.  A
token's identifier is itself the credential, so it is shown shortened.  A certificate's serial
number has one written form, upper-case hexadecimal without separators.
-/

namespace CertAuthority

open Json (Codec Reader)

structure TokenId where
  text : String
  deriving Repr, DecidableEq, Inhabited

namespace TokenId

/-- The identifier made from two random strings of sixteen bytes. -/
def ofRandom (a b : Bytes) : TokenId :=
  ⟨"bt-" ++ Hex.encodeLower a ++ "-" ++ Hex.encodeLower b⟩

/-- What may be shown of an identifier: its first eleven characters. -/
def redacted (id : TokenId) : String :=
  String.ofList (id.text.toList.take 11 ++ ['…'])

/-- The form for diagnostics. -/
def inspected (id : TokenId) : String :=
  "TokenId(" ++ Text.quote id.redacted ++ ")"

instance : Codec TokenId := ⟨fun id => .string id.text, Reader.parsed fun s => some ⟨s⟩⟩

end TokenId

structure RequestId where
  text : String
  deriving Repr, DecidableEq, Inhabited

namespace RequestId

/-- The identifier made from the day and four random bytes. -/
def ofRandom (now : Instant) (tail : Bytes) : RequestId :=
  ⟨"req-" ++ Time.compactDate now ++ "-" ++ Hex.encodeLower tail⟩

instance : Codec RequestId := ⟨fun id => .string id.text, Reader.parsed fun s => some ⟨s⟩⟩

end RequestId

structure SerialNumber where
  text : String
  deriving Repr, DecidableEq, Inhabited

namespace SerialNumber

/-- The number of bytes of a serial number that this authority draws. -/
def size : Nat := 16

/-- Sixteen random bytes as a positive number whose DER form keeps all of them: the top bit is
cleared, and a leading zero becomes one. -/
def bytesOfRandom : Bytes → Bytes
  | [] => []
  | b :: rest =>
    let top := b &&& 0x7F
    (if top = 0 then 1 else top) :: rest

def ofBytes (bytes : Bytes) : SerialNumber :=
  ⟨Hex.encodeUpper bytes⟩

/-- Lower-case letters of ASCII become upper-case ones. -/
def upper (c : Char) : Char :=
  if 'a' ≤ c ∧ c ≤ 'z' then Char.ofNat (c.toNat - 32) else c

/-- The characters of a typed serial number in the one written form. -/
def normalize (input : List Char) : List Char :=
  ((Text.trimChars input).filter (· ≠ ':')).map upper

/-- Reads a typed serial number: hexadecimal in any letter case, colons anywhere. -/
def parse (input : String) : Except CaError SerialNumber :=
  let digits := normalize input.toList
  if digits.isEmpty ∨ !digits.all (fun c => (Hex.digitValue c).isSome) then
    .error (.invalidArgument ("serial number must be hexadecimal: " ++ input))
  else .ok ⟨String.ofList digits⟩

instance : Codec SerialNumber := ⟨fun s => .string s.text, Reader.parsed fun s => some ⟨s⟩⟩

end SerialNumber

end CertAuthority
