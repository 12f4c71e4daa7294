import CertAuthority.Json.Number
import CertAuthority.Text.Character
import CertAuthority.Toml.Quoted

/-!
# Settings from the environment

A variable whose name begins with `MWCA__` is a setting; two low lines lead from a section into
it.  Its value is a truth value, a number, a text in double quotes, a list or a table, if it can
be read as one, and otherwise the text as it is.
-/

namespace CertAuthority.Environment

/-- What the name of a setting begins with, in small letters. -/
def lead : List Char := "mwca__".toList

/-- The text with points in the place of two low lines. -/
def withPoints : List Char → List Char
  | '_' :: '_' :: rest => '.' :: withPoints rest
  | c :: rest => c :: withPoints rest
  | [] => []

/-- What lies between the points of a text. -/
def splitPoints : List Char → List (List Char)
  | [] => [[]]
  | c :: rest =>
    if c = '.' then [] :: splitPoints rest
    else
      match splitPoints rest with
      | [] => [[c]]
      | part :: parts => (c :: part) :: parts

/-- The way to the setting that a variable names; nothing if it names none. -/
def path? (name : String) : Option (List String) :=
  let name := (Text.lowerAscii (Text.trim name)).toList
  if lead.isPrefixOf name then
    let parts := splitPoints (withPoints (Text.trimChars (name.drop lead.length)))
    if [] ∈ parts then none else some (parts.map String.ofList)
  else none

def isSpace (c : Char) : Bool :=
  c.isWhitespace || c = '\x0c'

def skipSpace (s : List Char) : List Char :=
  s.dropWhile isSpace

/-- The characters of a word, which ends at a comma or a bracket. -/
def isWordChar (c : Char) : Bool :=
  c ≠ ',' ∧ c ≠ '\x7b' ∧ c ≠ '\x7d' ∧ c ≠ '[' ∧ c ≠ ']'

def withoutSign : List Char → List Char
  | '+' :: rest => rest
  | '-' :: rest => rest
  | s => s

def areDigits (s : List Char) : Bool :=
  !s.isEmpty && s.all Char.isDigit

/-- A number with a point; it may lack digits on one side of it. -/
def fraction? (s : List Char) : Option JsonNumber :=
  let body := withoutSign s
  let (mantissa, exponent) := body.span fun c => c ≠ 'e' ∧ c ≠ 'E'
  let (whole, rest) := mantissa.span Char.isDigit
  match rest with
  | '.' :: places =>
    let exponent? : Option (Option (Bool × List Char)) := match exponent with
      | [] => some none
      | _ :: e =>
        if areDigits (withoutSign e) then some (some (e.head? = some '-', withoutSign e)) else none
    if areDigits (whole ++ places) then
      exponent?.bind fun e => JsonNumber.ofLiteral ⟨s.head? = some '-', whole, some places, e⟩
    else none
  | _ => none

/-- The largest numbers with and without a sign. -/
def whole? (s : List Char) : Option Int :=
  let body := withoutSign s
  if areDigits body then
    let n : Nat := body.foldl (fun n c => n * 10 + (c.toNat - 48)) 0
    if s.head? = some '-' then if n ≤ Nat.pow 2 63 then some (-(n : Int)) else none
    else if n < Nat.pow 2 64 then some n
    else none
  else none

/-- The value of a word. -/
def word (s : List Char) : Json :=
  let s := Text.trimChars s
  match fraction? s, whole? s with
  | some n, _ => .number n
  | none, some n => .number (.int n)
  | none, none => .string (String.ofList s)

/-- The key of a field in a table, with the blanks around it. -/
def key? (s : List Char) : Option (String × List Char) :=
  let s := skipSpace s
  let found := match s with
    | '"' :: rest => Toml.basicText (rest.length + 1) rest
    | _ =>
      match s.span Toml.isKeyChar with
      | ([], _) => none
      | found => some found
  found.map fun (name, rest) => (String.ofList name, skipSpace rest)

mutual

/-- A value with the blanks around it, and what follows.  The fuel bounds the length. -/
def value? : Nat → List Char → Option (Json × List Char)
  | 0, _ => none
  | fuel + 1, s =>
    let found : Option (Json × List Char) := match skipSpace s with
      | 't' :: 'r' :: 'u' :: 'e' :: rest => some (.bool true, rest)
      | 'f' :: 'a' :: 'l' :: 's' :: 'e' :: rest => some (.bool false, rest)
      | '\x7b' :: rest => (fields? fuel rest).map fun (fields, rest) =>
          (.object (Json.sortedFields fields), rest)
      | '[' :: rest => (items? fuel rest).map fun (items, rest) => (.array items, rest)
      | '"' :: rest => (Toml.basicText (rest.length + 1) rest).map fun (text, rest) =>
          (.string (String.ofList text), rest)
      | s => some (word (s.takeWhile isWordChar), s.dropWhile isWordChar)
    found.map fun (v, rest) => (v, skipSpace rest)

/-- The items of a list up to its end. -/
def items? : Nat → List Char → Option (List Json × List Char)
  | 0, _ => none
  | fuel + 1, s =>
    match skipSpace s with
    | ']' :: rest => some ([], rest)
    | s => do
      let (v, rest) ← value? fuel s
      match rest with
      | ',' :: rest =>
        let (vs, rest) ← items? fuel rest
        return (v :: vs, rest)
      | ']' :: rest => return ([v], rest)
      | _ => none

/-- The fields of a table up to its end. -/
def fields? : Nat → List Char → Option (List (String × Json) × List Char)
  | 0, _ => none
  | fuel + 1, s =>
    match skipSpace s with
    | '\x7d' :: rest => some ([], rest)
    | s => do
      let (name, rest) ← key? s
      match rest with
      | '=' :: rest =>
        let (v, rest) ← value? fuel rest
        match rest with
        | ',' :: rest =>
          let (fields, rest) ← fields? fuel rest
          return ((name, v) :: fields, rest)
        | '\x7d' :: rest => return ([(name, v)], rest)
        | _ => none
      | _ => none

end

/-- The value of a variable. -/
def value (text : String) : Json :=
  let s := Text.trimChars text.toList
  match value? (s.length + 1) s with
  | some (v, []) => v
  | _ => .string (String.ofList s)

/-- A value at the end of a way. -/
def nest : List String → Json → Json
  | [], v => v
  | name :: path, v => .object [(name, nest path v)]

end CertAuthority.Environment
