import CertAuthority.X509.Name

/-!
# Names with one value for each type

The names that this authority writes hold one attribute in each relative name, and each type of
attribute once.  A name that gives several values for one type keeps the last of them, where the
first one stood.
-/

namespace CertAuthority.X509

namespace NameAttribute

/-- The characters of a printable string. -/
def isPrintable (b : UInt8) : Bool :=
  let c := Char.ofNat b.toNat
  c.isAlphanum || " '()+,-./:=?".toList.contains c

/-- Whether every four bytes are a character. -/
def areWideChars : Bytes → Bool
  | [] => true
  | a :: b :: c :: d :: rest =>
    let n := Bytes.toNat [a, b, c, d]
    decide (n < 0xD800 ∨ (0xDFFF < n ∧ n < 0x110000)) && areWideChars rest
  | _ => false

/-- Whether the value is of a string type that is written, and holds only its characters. -/
def isWritable (a : NameAttribute) : Bool :=
  if a.tag = Asn1.utf8String then (Bytes.decodeUtf8 a.value).isSome
  else if a.tag = Asn1.printableString then a.value.all isPrintable
  else if a.tag = Asn1.ia5String then Bytes.isAscii a.value
  else if a.tag = Asn1.teletexString then a.value.all fun b => 0x20 ≤ b ∧ b < 0x80
  else if a.tag = Asn1.bmpString then
    a.value.length % 2 = 0 ∧
      (units a.value).all fun u => u < 0xD800 ∨ (0xDFFF < u ∧ u < 0xFFFF)
  else if a.tag = Asn1.universalString then areWideChars a.value
  else false

/-- Puts an attribute into a list: in the place of the one of its type, or at the end. -/
def insert (a : NameAttribute) : List NameAttribute → List NameAttribute
  | [] => [a]
  | b :: rest => if b.type = a.type then a :: rest else b :: insert a rest

end NameAttribute

namespace Name

/-- The attributes of a name in which each relative name has one that can be written. -/
def plainAttributes? (name : Name) : Option (List NameAttribute) :=
  name.relativeNames.mapM fun
    | [a] => if a.isWritable then some a else none
    | _ => none

/-- The name of a list of attributes. -/
def ofAttributes (attributes : List NameAttribute) : Name :=
  ⟨attributes.map ([·])⟩

/-- The name with one value for each type. -/
def singleValued? (name : Name) : Option Name :=
  name.plainAttributes?.map fun attributes =>
    ofAttributes (attributes.foldl (fun kept a => a.insert kept) [])

end Name

end CertAuthority.X509
