import CertAuthority.Json.Tree

/-!
# Quoted text in TOML

Text stands between double quotes, with escapes, or between single ones, as it is.  Three quotes
open a text of several lines, whose first line may be empty and is then passed over.
-/

namespace CertAuthority.Toml

def isBlank (c : Char) : Bool :=
  c = ' ' || c = '\t'

def skipBlanks (s : List Char) : List Char :=
  s.dropWhile isBlank

/-- What follows the end of a line. -/
def afterNewline? : List Char → Option (List Char)
  | '\n' :: rest => some rest
  | '\r' :: '\n' :: rest => some rest
  | _ => none

/-- The characters of a line: all but the controls, of which only the tab may stand. -/
def isLineChar (c : Char) : Bool :=
  c = '\t' || (0x20 ≤ c.toNat && c.toNat ≠ 0x7F)

def scalar? (code : Nat) : Option Char :=
  if code.isValidChar then some (Char.ofNat code) else none

/-- The character that an escape stands for, and what follows it; its backslash is already
taken. -/
def escaped? : List Char → Option (Char × List Char)
  | 'u' :: a :: b :: c :: d :: rest => do
    let c ← scalar? (← Json.Tree.hexFour a b c d)
    return (c, rest)
  | 'U' :: a :: b :: c :: d :: e :: f :: g :: h :: rest => do
    let high ← Json.Tree.hexFour a b c d
    let low ← Json.Tree.hexFour e f g h
    let c ← scalar? (high * 0x10000 + low)
    return (c, rest)
  | c :: rest =>
    if c = '/' then none else (Json.Tree.shortEscape c).map fun c => (c, rest)
  | [] => none

/-- Text up to a double quote, and what follows it.  The fuel bounds the length. -/
def basicText : Nat → List Char → Option (List Char × List Char)
  | 0, _ => none
  | _ + 1, [] => none
  | fuel + 1, c :: rest =>
    if c = '"' then some ([], rest)
    else if c = '\\' then do
      let (c, rest) ← escaped? rest
      let (tail, rest) ← basicText fuel rest
      return (c :: tail, rest)
    else if isLineChar c then do
      let (tail, rest) ← basicText fuel rest
      return (c :: tail, rest)
    else none

/-- Text up to a single quote, and what follows it. -/
def literalText : List Char → Option (List Char × List Char)
  | [] => none
  | c :: rest =>
    if c = '\'' then some ([], rest)
    else if isLineChar c then do
      let (tail, rest) ← literalText rest
      return (c :: tail, rest)
    else none

/-- The end of a text of several lines: three quotes, before which up to two more belong to the
text. -/
def closing? (quote : Char) (s : List Char) : Option (List Char × List Char) :=
  let run := (s.takeWhile (· = quote)).length
  if run < 3 then none
  else
    let kept := min (run - 3) 2
    some (List.replicate kept quote, s.drop (kept + 3))

/-- Drops blanks and ends of lines. -/
def skipSpace : Nat → List Char → List Char
  | 0, s => s
  | fuel + 1, s =>
    match afterNewline? s with
    | some rest => skipSpace fuel rest
    | none =>
      match s with
      | c :: rest => if isBlank c then skipSpace fuel rest else s
      | [] => []

/-- Whether only blanks stand before the end of the line. -/
def endsLine (s : List Char) : Bool :=
  (afterNewline? (skipBlanks s)).isSome

/-- Text of several lines up to three quotes, and what follows them.  Escapes count only between
double quotes; there a backslash at the end of a line swallows the space that follows. -/
def linesText (quote : Char) : Nat → List Char → Option (List Char × List Char)
  | 0, _ => none
  | fuel + 1, s =>
    match closing? quote s with
    | some found => some found
    | none =>
      match afterNewline? s with
      | some rest => (linesText quote fuel rest).map fun (tail, rest) => ('\n' :: tail, rest)
      | none =>
        match s with
        | [] => none
        | c :: rest =>
          if c = '\\' ∧ quote = '"' then
            if endsLine rest then linesText quote fuel (skipSpace rest.length rest)
            else do
              let (c, rest) ← escaped? rest
              let (tail, rest) ← linesText quote fuel rest
              return (c :: tail, rest)
          else if isLineChar c then
            (linesText quote fuel rest).map fun (tail, rest) => (c :: tail, rest)
          else none

/-- The text without an empty first line. -/
def withoutFirstLine (s : List Char) : List Char :=
  (afterNewline? s).getD s

/-- A text of one line in quotes. -/
def quotedLine? : List Char → Option (List Char × List Char)
  | '"' :: rest => basicText (rest.length + 1) rest
  | '\'' :: rest => literalText rest
  | _ => none

/-- A text in quotes of either kind. -/
def quoted? : List Char → Option (List Char × List Char)
  | '"' :: '"' :: '"' :: rest => linesText '"' (rest.length + 1) (withoutFirstLine rest)
  | '\'' :: '\'' :: '\'' :: rest => linesText '\'' (rest.length + 1) (withoutFirstLine rest)
  | s => quotedLine? s

/-- The characters of a key that is not quoted. -/
def isKeyChar (c : Char) : Bool :=
  c.isAlphanum || c = '_' || c = '-'

/-- One part of a key. -/
def keyPart? (s : List Char) : Option (String × List Char) :=
  match quotedLine? s with
  | some (text, rest) => some (String.ofList text, rest)
  | none =>
    match s.span isKeyChar with
    | ([], _) => none
    | (name, rest) => some (String.ofList name, rest)

/-- A key of one or more parts, with blanks around each. -/
def keyPath : Nat → List Char → Option (List String × List Char)
  | 0, _ => none
  | fuel + 1, s => do
    let (part, rest) ← keyPart? (skipBlanks s)
    match skipBlanks rest with
    | '.' :: rest =>
      let (parts, rest) ← keyPath fuel rest
      return (part :: parts, rest)
    | rest => return ([part], rest)

/-- A key, and what follows the blanks behind it. -/
def key? (s : List Char) : Option (List String × List Char) :=
  keyPath (s.length + 1) s

end CertAuthority.Toml
