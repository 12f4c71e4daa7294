import CertAuthority.Bytes.Base64
import CertAuthority.Error
import CertAuthority.Text.Character

/-!
# PEM text

Binary data in base64 between a line that begins a block and a line that ends it.  Reading
takes the first block of a text and ignores whatever stands around it, and every blank in its
data.  A block may open with header lines, which a blank line closes.
-/

namespace CertAuthority.Pem

structure Block where
  tag : String
  contents : Bytes
  deriving Repr, DecidableEq

def beginMarker : List Char := "-----BEGIN ".toList
def endMarker : List Char := "-----END ".toList
def dashes : List Char := "-----".toList

/-- Scans for a marker, of which `pending` is still to come; `seen` is what was read so far, in
reverse.  A character that does not continue the marker starts the search over behind it. -/
def scan (marker : List Char) : List Char → List Char → List Char → Option (List Char × List Char)
  | [], seen, rest => some ((seen.drop marker.length).reverse, rest)
  | _ :: _, _, [] => none
  | p :: pending, seen, c :: rest =>
    if c = p then
      if pending.isEmpty then some (((c :: seen).drop marker.length).reverse, rest)
      else scan marker pending (c :: seen) rest
    else scan marker marker (c :: seen) rest

/-- The text before the first occurrence of a marker and the text behind it. -/
def splitAt (marker text : List Char) : Option (List Char × List Char) :=
  scan marker marker [] text

def isPadding (c : Char) : Bool :=
  c = ' ' || c = '\t' || c = '\n' || c = '\r'

/-- The text before and behind the first place where `separator` occurs. -/
def splitFirst (separator : List Char) : List Char → Option (List Char × List Char)
  | [] => none
  | c :: rest =>
    if separator.isPrefixOf (c :: rest) then some ([], (c :: rest).drop separator.length)
    else (splitFirst separator rest).map fun (head, tail) => (c :: head, tail)

/-- Header text and data of a block's body. -/
def splitHeaders (body : List Char) : List Char × List Char :=
  match splitFirst ['\n', '\n'] body with
  | some parts => parts
  | none =>
    match splitFirst ['\r', '\n', '\r', '\n'] body with
    | some parts => parts
    | none => ([], body)

/-- The lines of a text, without their ends; a last line may lack its end. -/
def lines (s : List Char) : List (List Char) :=
  let rec go (current : List Char) : List Char → List (List Char)
    | [] => if current.isEmpty then [] else [current.reverse]
    | '\n' :: rest =>
      let line := match current with
        | '\r' :: c => c
        | c => c
      line.reverse :: go [] rest
    | c :: rest => go (c :: current) rest
  go [] s

def parseChars (text : List Char) : Option Block := do
  let (_, text) ← splitAt beginMarker text
  let (openTag, text) ← splitAt dashes text
  let (body, text) ← splitAt endMarker (text.dropWhile isPadding)
  let (closeTag, _) ← splitAt dashes text
  if openTag.isEmpty ∨ openTag ≠ closeTag then none
  let (headers, data) := splitHeaders body
  let contents ← Base64.decode (data.filter fun c => !Text.isBlank c)
  if (lines headers).all (·.contains ':') then
    return ⟨String.ofList openTag, contents⟩
  else none

/-- The first block of a text. -/
def parse (text : String) : Option Block :=
  parseChars text.toList

/-- Lines of 64 characters, each with its end. -/
def wrapped (lineEnd : List Char) : Nat → List Char → List Char
  | 0, _ => []
  | fuel + 1, s =>
    if s.isEmpty then [] else s.take 64 ++ lineEnd ++ wrapped lineEnd fuel (s.drop 64)

def encodeWith (lineEnd : List Char) (tag : String) (contents : Bytes) : String :=
  let data := Base64.encode contents
  String.ofList (beginMarker ++ tag.toList ++ dashes ++ lineEnd ++ wrapped lineEnd data.length data ++
    endMarker ++ tag.toList ++ dashes ++ lineEnd)

/-- A block with lines that end in carriage return and line feed. -/
def encode (tag : String) (contents : Bytes) : String :=
  encodeWith ['\r', '\n'] tag contents

/-- A block with lines that end in a line feed. -/
def encodeUnix (tag : String) (contents : Bytes) : String :=
  encodeWith ['\n'] tag contents

/-- The contents of a text whose first block has the given tag. -/
def contentsOf (text tag : String) : Except CaError Bytes :=
  if Text.isAllBlank text then .error (.malformedCsr "Empty PEM")
  else
    match parse text with
    | none => .error (.malformedCsr "Failed to parse PEM")
    | some block =>
      if block.tag = tag then .ok block.contents
      else
        .error (.malformedCsr ("Unexpected PEM block " ++ block.tag ++ ", expected " ++ tag))

end CertAuthority.Pem
