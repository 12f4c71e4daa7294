import CertAuthority.Json.Basic

/-!
# Tables under construction

A table comes to be by its header, by the header of a table inside it, or by a key of several
parts.  Each is defined once: a header does not reopen a table that has had its own, nor one that
keys have made, and keys reach only into tables that keys have made.
-/

namespace CertAuthority.Toml

/-- How a table has come to be. -/
inductive Origin where
  /-- By the header of a table inside it. -/
  | implied
  | header
  | keys
  deriving Repr, DecidableEq

inductive Item where
  | value (v : Json)
  | table (origin : Origin) (items : List (String × Item))

abbrev Items := List (String × Item)

namespace Items

def find? (items : Items) (name : String) : Option Item :=
  (List.find? (·.1 = name) items).map (·.2)

/-- The items with another one of a name, which is new or stays in its place. -/
def put (items : Items) (name : String) (item : Item) : Items :=
  if (items.find? name).isSome then
    items.map fun (n, i) => if n = name then (n, item) else (n, i)
  else items ++ [(name, item)]

/-- Enters a value under a key of one or more parts. -/
def define (items : Items) : List String → Json → Option Items
  | [], _ => none
  | [name], v =>
    if (items.find? name).isSome then none else some (items.put name (.value v))
  | name :: path, v =>
    match items.find? name with
    | none => (define [] path v).map fun inner => items.put name (.table .keys inner)
    | some (.table .keys inner) =>
      (define inner path v).map fun inner => items.put name (.table .keys inner)
    | some _ => none

/-- Opens the table of a header. -/
def openTable (items : Items) : List String → Option Items
  | [] => none
  | [name] =>
    match items.find? name with
    | none => some (items.put name (.table .header []))
    | some (.table .implied inner) => some (items.put name (.table .header inner))
    | some _ => none
  | name :: path =>
    match items.find? name with
    | none => (openTable [] path).map fun inner => items.put name (.table .implied inner)
    | some (.table origin inner) =>
      (openTable inner path).map fun inner => items.put name (.table origin inner)
    | some (.value _) => none

/-- Changes the items of the table that a path leads to. -/
def within (items : Items) (change : Items → Option Items) : List String → Option Items
  | [] => change items
  | name :: path =>
    match items.find? name with
    | some (.table origin inner) =>
      (within inner change path).map fun inner => items.put name (.table origin inner)
    | _ => none

end Items

mutual

def Item.toJson : Item → Json
  | .value v => v
  | .table _ items => .object (Items.toFields items)

/-- The fields of a finished table. -/
def Items.toFields : List (String × Item) → List (String × Json)
  | [] => []
  | (name, item) :: rest => (name, Item.toJson item) :: Items.toFields rest

end

end CertAuthority.Toml
