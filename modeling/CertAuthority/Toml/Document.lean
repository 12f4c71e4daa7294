import CertAuthority.Toml.Quoted
import CertAuthority.Toml.Table

/-!
# TOML documents

A document is a list of lines, each a header, a key with its value, or empty.  Values are text,
whole numbers, truth values, lists and tables in one line.  Fractions, times and lists of tables
are no part of any setting, and a document with one of them is refused.
-/

namespace CertAuthority.Toml

def skipComment : List Char → List Char
  | '#' :: rest => rest.dropWhile isLineChar
  | s => s

/-- What follows the end of a line, before which a comment may stand. -/
def lineEnd? (s : List Char) : Option (List Char) :=
  match skipComment (skipBlanks s) with
  | [] => some []
  | s => afterNewline? s

/-- Drops blanks, comments and ends of lines. -/
def skipLines : Nat → List Char → List Char
  | 0, s => s
  | fuel + 1, s =>
    let next := skipComment (skipBlanks s)
    match afterNewline? next with
    | some rest => skipLines fuel rest
    | none => next

/-- Digits of a base, with single low lines between them. -/
def digitsOf (base acc : Nat) : List Char → Option Nat
  | [] => some acc
  | '_' :: c :: rest => do
    let d ← Json.Tree.hexValue c
    if d < base then digitsOf base (acc * base + d) rest else none
  | c :: rest => do
    let d ← Json.Tree.hexValue c
    if d < base then digitsOf base (acc * base + d) rest else none

/-- Digits that do not begin with a low line. -/
def natural? (base : Nat) : List Char → Option Nat
  | [] | '_' :: _ => none
  | s => digitsOf base 0 s

/-- Decimal digits without a needless zero in front. -/
def decimal? : List Char → Option Nat
  | ['0'] => some 0
  | '0' :: _ => none
  | s => natural? 10 s

/-- A whole number. -/
def integer? : List Char → Option Int
  | '0' :: 'x' :: s => (natural? 16 s).map Int.ofNat
  | '0' :: 'o' :: s => (natural? 8 s).map Int.ofNat
  | '0' :: 'b' :: s => (natural? 2 s).map Int.ofNat
  | '+' :: s => (decimal? s).map Int.ofNat
  | '-' :: s => (decimal? s).map fun n => -(n : Int)
  | s => (decimal? s).map Int.ofNat

/-- The characters of a value that is neither quoted nor bracketed. -/
def isWordChar (c : Char) : Bool :=
  c.isAlphanum || c = '_' || c = '-' || c = '+' || c = '.' || c = ':'

/-- The value of a word: a truth value, or a number of 64 bits with its sign. -/
def word? (s : List Char) : Option Json :=
  if s = "true".toList then some (.bool true)
  else if s = "false".toList then some (.bool false)
  else
    match integer? s with
    | some n => if -(Nat.pow 2 63) ≤ n ∧ n < Nat.pow 2 63 then some (.number (.int n)) else none
    | none => none

mutual

/-- A value and what follows it.  The fuel bounds the length. -/
def value? : Nat → List Char → Option (Json × List Char)
  | 0, _ => none
  | fuel + 1, s =>
    match quoted? s with
    | some (text, rest) => some (.string (String.ofList text), rest)
    | none =>
      match s with
      | '[' :: rest => (items? fuel rest).map fun (items, rest) => (.array items, rest)
      | '\x7b' :: rest =>
        match skipBlanks rest with
        | '\x7d' :: rest => some (.object [], rest)
        | rest => (fields? fuel [] rest).map fun (items, rest) =>
            (.object (Items.toFields items), rest)
      | s => (word? (s.takeWhile isWordChar)).map fun v => (v, s.dropWhile isWordChar)

/-- The items of a list up to its end. -/
def items? : Nat → List Char → Option (List Json × List Char)
  | 0, _ => none
  | fuel + 1, s =>
    match skipLines s.length s with
    | ']' :: rest => some ([], rest)
    | s => do
      let (v, rest) ← value? fuel s
      match skipLines rest.length rest with
      | ',' :: rest =>
        let (vs, rest) ← items? fuel rest
        return (v :: vs, rest)
      | ']' :: rest => return ([v], rest)
      | _ => none

/-- The fields of a table in one line up to its end. -/
def fields? : Nat → Items → List Char → Option (Items × List Char)
  | 0, _, _ => none
  | fuel + 1, items, s => do
    let (path, rest) ← key? s
    match rest with
    | '=' :: rest =>
      let (v, rest) ← value? fuel (skipBlanks rest)
      let items ← items.define path v
      match skipBlanks rest with
      | ',' :: rest => fields? fuel items rest
      | '\x7d' :: rest => return (items, rest)
      | _ => none
    | _ => none

end

/-- The header of a table and what follows its line. -/
def header? (s : List Char) : Option (List String × List Char) := do
  let (path, rest) ← key? s
  match rest with
  | ']' :: rest =>
    let rest ← lineEnd? rest
    return (path, rest)
  | _ => none

/-- A key with its value and what follows their line. -/
def assignment? (s : List Char) : Option (List String × Json × List Char) := do
  let (path, rest) ← key? s
  match rest with
  | '=' :: rest =>
    let rest := skipBlanks rest
    let (v, rest) ← value? (rest.length + 1) rest
    let rest ← lineEnd? rest
    return (path, v, rest)
  | _ => none

/-- The lines of a document, entered into the table that is open.  The fuel bounds their
number. -/
def lines? : Nat → (current : List String) → Items → List Char → Option Items
  | 0, _, _, _ => none
  | fuel + 1, current, items, s =>
    match lineEnd? s with
    | some [] => some items
    | some rest => lines? fuel current items rest
    | none =>
      match skipBlanks s with
      | '[' :: rest => do
        let (path, rest) ← header? rest
        let items ← items.openTable path
        lines? fuel path items rest
      | s => do
        let (path, v, rest) ← assignment? s
        let items ← items.within (·.define path v) current
        lines? fuel current items rest

/-- The table that a document holds. -/
def parse (text : String) : Option Json :=
  let s := match text.toList with
    | '\uFEFF' :: rest => rest
    | s => s
  (lines? (s.length + 2) [] [] s).map fun items => .object (Items.toFields items)

end CertAuthority.Toml
