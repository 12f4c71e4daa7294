import CertAuthority.Json.Number

/-!
# Writing JSON

Two layouts: compact, without any blanks, and indented by two spaces a level, where an empty
array or object stays on one line.  A string escapes quotes, backslashes and control
characters, and holds all other characters as they are.
-/

namespace CertAuthority.Json

def hexDigit (n : Nat) : Char :=
  if n < 10 then Char.ofNat (48 + n) else Char.ofNat (87 + n)

def escapeChar (c : Char) : List Char :=
  if c = '"' then ['\\', '"']
  else if c = '\\' then ['\\', '\\']
  else if c.toNat < 0x20 then
    if c = '\x08' then ['\\', 'b']
    else if c = '\t' then ['\\', 't']
    else if c = '\n' then ['\\', 'n']
    else if c = '\x0c' then ['\\', 'f']
    else if c = '\r' then ['\\', 'r']
    else ['\\', 'u', '0', '0', hexDigit (c.toNat / 16), hexDigit (c.toNat % 16)]
  else [c]

def quoted (s : String) : List Char :=
  '"' :: s.toList.flatMap escapeChar ++ ['"']

mutual

def compact : Json → List Char
  | .null => ['n', 'u', 'l', 'l']
  | .bool true => ['t', 'r', 'u', 'e']
  | .bool false => ['f', 'a', 'l', 's', 'e']
  | .number n => n.render
  | .string s => quoted s
  | .array [] => ['[', ']']
  | .array (v :: rest) => '[' :: compact v ++ compactItems rest
  | .object [] => ['\x7b', '\x7d']
  | .object ((k, v) :: rest) => '\x7b' :: quoted k ++ ':' :: compact v ++ compactFields rest

/-- The elements after the first and the closing bracket. -/
def compactItems : List Json → List Char
  | [] => [']']
  | v :: rest => ',' :: compact v ++ compactItems rest

/-- The fields after the first and the closing brace. -/
def compactFields : List (String × Json) → List Char
  | [] => ['\x7d']
  | (k, v) :: rest => ',' :: quoted k ++ ':' :: compact v ++ compactFields rest

end

/-- A line break and the indentation of a level. -/
def newline (level : Nat) : List Char :=
  '\n' :: List.replicate (2 * level) ' '

mutual

def pretty (level : Nat) : Json → List Char
  | .null => ['n', 'u', 'l', 'l']
  | .bool true => ['t', 'r', 'u', 'e']
  | .bool false => ['f', 'a', 'l', 's', 'e']
  | .number n => n.render
  | .string s => quoted s
  | .array [] => ['[', ']']
  | .array (v :: rest) =>
    '[' :: newline (level + 1) ++ pretty (level + 1) v ++ prettyItems level rest
  | .object [] => ['\x7b', '\x7d']
  | .object ((k, v) :: rest) =>
    '\x7b' :: newline (level + 1) ++ quoted k ++ ':' :: ' ' :: pretty (level + 1) v ++
      prettyFields level rest

def prettyItems (level : Nat) : List Json → List Char
  | [] => newline level ++ [']']
  | v :: rest => ',' :: newline (level + 1) ++ pretty (level + 1) v ++ prettyItems level rest

def prettyFields (level : Nat) : List (String × Json) → List Char
  | [] => newline level ++ ['\x7d']
  | (k, v) :: rest =>
    ',' :: newline (level + 1) ++ quoted k ++ ':' :: ' ' :: pretty (level + 1) v ++
      prettyFields level rest

end

def toText (v : Json) : String :=
  String.ofList (compact v)

def toPrettyText (v : Json) : String :=
  String.ofList (pretty 0 v)

end CertAuthority.Json
