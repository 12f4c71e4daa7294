/-!
# Paths as text

A path is taken apart at its slashes.  Empty parts and single points say nothing and are passed
over, save a point in front, which says that the path is relative.
-/

namespace CertAuthority.Path

/-- What lies between the slashes of a text. -/
def splitSlashes (s : List Char) : List (List Char) :=
  match s with
  | [] => [[]]
  | c :: rest =>
    if c = '/' then [] :: splitSlashes rest
    else
      match splitSlashes rest with
      | [] => [[c]]
      | part :: parts => (c :: part) :: parts

/-- Puts slashes between parts. -/
def joinSlashes : List (List Char) → List Char
  | [] => []
  | [part] => part
  | part :: parts => part ++ '/' :: joinSlashes parts

def isVoid (part : List Char) : Bool :=
  part = [] ∨ part = ['.']

/-- Drops void parts at the end, but never the first part. -/
def trimVoid : List (List Char) → List (List Char)
  | [] => []
  | first :: parts => first :: (parts.reverse.dropWhile isVoid).reverse

/-- The parts of a path up to its last name. -/
def parts (path : String) : List (List Char) :=
  trimVoid (splitSlashes path.toList)

/-- The last name of a path; nothing if the path ends in two points or has no name. -/
def fileName? (path : String) : Option String :=
  match (parts path).getLast? with
  | some name =>
    if name = [] ∨ name = ['.'] ∨ name = ['.', '.'] then none else some (String.ofList name)
  | none => none

/-- The path without its last name; nothing for the root and the empty path. -/
def parent? (path : String) : Option String :=
  match parts path with
  | [] | [[]] => none
  | [_] => some ""
  | ps =>
    match trimVoid ps.dropLast with
    | [[]] => some "/"
    | kept => some (String.ofList (joinSlashes kept))

def isAbsolute (path : String) : Bool :=
  path.toList.head? = some '/'

/-- A path below another; an absolute one stands for itself. -/
def join (base path : String) : String :=
  if isAbsolute path then path
  else if base = "" then path
  else if base.toList.getLast? = some '/' then base ++ path
  else base ++ "/" ++ path

/-- The names that are followed from one directory to the next.  A slash at the end stands for a
point behind it. -/
def names (path : String) : List String :=
  let found := (splitSlashes path.toList).filter (· ≠ [])
  let found := if path.toList.getLast? = some '/' ∧ found ≠ [] then found ++ [['.']] else found
  found.map String.ofList

end CertAuthority.Path
