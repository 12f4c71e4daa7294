import CertAuthority.Json.Number

/-!
# JSON text as a tree

The grammar of JSON, before any value in it is used.  A tree keeps the fields of an object as
they stand, repeated keys included.  A string whose escapes name a lone surrogate has no text,
and a number past the largest double has no value; that matters only to a reader that wants
the text or the value.
-/

namespace CertAuthority.Json

inductive Tree where
  | null
  | bool (b : Bool)
  | number (value : Option JsonNumber)
  | string (text : Option String)
  | array (items : List Tree)
  | object (fields : List (Option String × Tree))
  deriving Inhabited

namespace Tree

def isSpace (c : Char) : Bool :=
  c = ' ' || c = '\n' || c = '\t' || c = '\r'

def skipSpace (s : List Char) : List Char :=
  s.dropWhile isSpace

def hexValue (c : Char) : Option Nat :=
  if '0' ≤ c ∧ c ≤ '9' then some (c.toNat - 48)
  else if 'a' ≤ c ∧ c ≤ 'f' then some (c.toNat - 87)
  else if 'A' ≤ c ∧ c ≤ 'F' then some (c.toNat - 55)
  else none

def hexFour (a b c d : Char) : Option Nat := do
  let w ← hexValue a
  let x ← hexValue b
  let y ← hexValue c
  let z ← hexValue d
  return ((w * 16 + x) * 16 + y) * 16 + z

/-- The character of a short escape. -/
def shortEscape (c : Char) : Option Char :=
  match c with
  | '"' => some '"'
  | '\\' => some '\\'
  | '/' => some '/'
  | 'b' => some '\x08'
  | 'f' => some '\x0c'
  | 'n' => some '\n'
  | 'r' => some '\r'
  | 't' => some '\t'
  | _ => none

/-- A unit of a string: a character, or half of a surrogate pair. -/
inductive Piece where
  | char (c : Char)
  | half (code : Nat)

/-- The pieces of a string up to its closing quote, and what follows the quote. -/
def pieces : List Char → Option (List Piece × List Char)
  | [] => none
  | '"' :: rest => some ([], rest)
  | '\\' :: 'u' :: a :: b :: c :: d :: rest => do
    let code ← hexFour a b c d
    let (tail, rest) ← pieces rest
    if 0xD800 ≤ code ∧ code ≤ 0xDFFF then return (.half code :: tail, rest)
    else return (.char (Char.ofNat code) :: tail, rest)
  | '\\' :: e :: rest => do
    let c ← shortEscape e
    let (tail, rest) ← pieces rest
    return (.char c :: tail, rest)
  | c :: rest =>
    if c.toNat < 0x20 ∨ c = '\\' then none
    else do
      let (tail, rest) ← pieces rest
      return (.char c :: tail, rest)

/-- Joins surrogate pairs; nothing if one stands alone. -/
def joinPieces : List Piece → Option (List Char)
  | [] => some []
  | .char c :: rest => (joinPieces rest).map (c :: ·)
  | .half hi :: .half lo :: rest =>
    if hi < 0xDC00 ∧ 0xDC00 ≤ lo then
      (joinPieces rest).map (Char.ofNat (0x10000 + (hi - 0xD800) * 1024 + (lo - 0xDC00)) :: ·)
    else none
  | .half _ :: _ => none

/-- Reads a string whose opening quote is already taken. -/
def stringBody (s : List Char) : Option (Option String × List Char) :=
  (pieces s).map fun (ps, rest) => ((joinPieces ps).map String.ofList, rest)

def isDigit (c : Char) : Bool :=
  '0' ≤ c && c ≤ '9'

/-- A nonempty run of digits. -/
def digits1 (s : List Char) : Option (List Char × List Char) :=
  match s.span isDigit with
  | ([], _) => none
  | (ds, rest) => some (ds, rest)

/-- A number literal: no leading zero, and digits after the point and in the exponent. -/
def literal (s : List Char) : Option (JsonNumber.Literal × List Char) := do
  let (negative, s) := match s with
    | '-' :: rest => (true, rest)
    | _ => (false, s)
  let (whole, s) ← digits1 s
  if 1 < whole.length ∧ whole.head? = some '0' then none
  let (fraction, s) ← match s with
    | '.' :: rest => (digits1 rest).map fun (ds, rest) => (some ds, rest)
    | _ => some (none, s)
  let (exponent, s) ← match s with
    | c :: rest =>
      if c = 'e' ∨ c = 'E' then
        let (negativeExponent, rest) := match rest with
          | '+' :: r => (false, r)
          | '-' :: r => (true, r)
          | _ => (false, rest)
        (digits1 rest).map fun (ds, rest) => (some (negativeExponent, ds), rest)
      else some (none, s)
    | [] => some (none, s)
  return (⟨negative, whole, fraction, exponent⟩, s)

mutual

/-- Reads one value after blanks.  The fuel bounds the nesting and the number of elements
together; the length of the text is always enough. -/
def value (fuel : Nat) (s : List Char) : Option (Tree × List Char) :=
  match fuel with
  | 0 => none
  | fuel + 1 =>
    match skipSpace s with
    | 'n' :: 'u' :: 'l' :: 'l' :: rest => some (.null, rest)
    | 't' :: 'r' :: 'u' :: 'e' :: rest => some (.bool true, rest)
    | 'f' :: 'a' :: 'l' :: 's' :: 'e' :: rest => some (.bool false, rest)
    | '"' :: rest => (stringBody rest).map fun (t, rest) => (.string t, rest)
    | '[' :: rest =>
      match skipSpace rest with
      | ']' :: rest => some (.array [], rest)
      | rest => (items fuel rest).map fun (vs, rest) => (.array vs, rest)
    | '\x7b' :: rest =>
      match skipSpace rest with
      | '\x7d' :: rest => some (.object [], rest)
      | rest => (fields fuel rest).map fun (fs, rest) => (.object fs, rest)
    | s => (literal s).map fun (l, rest) => (.number (JsonNumber.ofLiteral l), rest)

/-- Reads the elements of an array that has at least one, and its closing bracket. -/
def items (fuel : Nat) (s : List Char) : Option (List Tree × List Char) :=
  match fuel with
  | 0 => none
  | fuel + 1 =>
    match value fuel s with
    | none => none
    | some (v, rest) =>
      match skipSpace rest with
      | ']' :: rest => some ([v], rest)
      | ',' :: rest => (items fuel rest).map fun (vs, rest) => (v :: vs, rest)
      | _ => none

/-- Reads the fields of an object that has at least one, and its closing brace. -/
def fields (fuel : Nat) (s : List Char) : Option (List (Option String × Tree) × List Char) :=
  match fuel with
  | 0 => none
  | fuel + 1 =>
    match skipSpace s with
    | '"' :: rest =>
      match stringBody rest with
      | none => none
      | some (key, rest) =>
        match skipSpace rest with
        | ':' :: rest =>
          match value fuel rest with
          | none => none
          | some (v, rest) =>
            match skipSpace rest with
            | '\x7d' :: rest => some ([(key, v)], rest)
            | ',' :: rest => (fields fuel rest).map fun (fs, rest) => ((key, v) :: fs, rest)
            | _ => none
        | _ => none
    | _ => none

end

/-- Reads a text that is one JSON value with blanks around it. -/
def parse (text : String) : Option Tree :=
  let s := text.toList
  match value (2 * s.length + 2) s with
  | some (t, rest) => if (skipSpace rest).isEmpty then some t else none
  | none => none

end Tree

end CertAuthority.Json
