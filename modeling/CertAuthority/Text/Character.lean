/-!
# Characters

Which characters are blank, and which have a case.
-/

namespace CertAuthority.Text

/-! ## Blank characters

The characters with the Unicode property White_Space, and what trimming them away leaves.
-/

/-- Unicode White_Space: twenty-five characters. -/
def isBlank (c : Char) : Bool :=
  let n := c.toNat
  (9 ≤ n ∧ n ≤ 13) ∨ n = 0x20 ∨ n = 0x85 ∨ n = 0xA0 ∨ n = 0x1680 ∨ (0x2000 ≤ n ∧ n ≤ 0x200A) ∨
    n = 0x2028 ∨ n = 0x2029 ∨ n = 0x202F ∨ n = 0x205F ∨ n = 0x3000

def trimStart (s : List Char) : List Char :=
  s.dropWhile isBlank

def trimEnd (s : List Char) : List Char :=
  (s.reverse.dropWhile isBlank).reverse

/-- A text without the blanks at either end. -/
def trimChars (s : List Char) : List Char :=
  trimEnd (trimStart s)

def trim (s : String) : String :=
  String.ofList (trimChars s.toList)

/-- A text of blanks only, the empty text included. -/
def isAllBlank (s : String) : Bool :=
  s.toList.all isBlank

/-! ## Letter case

Only letters of ASCII have a case here.
-/

/-- Upper-case letters of ASCII become lower-case ones. -/
def lowerAscii (s : String) : String :=
  String.ofList (s.toList.map Char.toLower)

end CertAuthority.Text
