/-!
# JSON values

A value keeps the fields of an object in a fixed order.  Values read from text have them
sorted by key; records list them in the order in which they are written.
-/

namespace CertAuthority

/-- A number is a 64-bit integer, signed or not, or a double given by its bits. -/
inductive JsonNumber where
  | int (n : Int)
  | float (bits : UInt64)
  deriving Repr, DecidableEq, Inhabited

inductive Json where
  | null
  | bool (b : Bool)
  | number (n : JsonNumber)
  | string (s : String)
  | array (items : List Json)
  | object (fields : List (String × Json))
  deriving Repr, Inhabited, BEq

namespace Json

def nat (n : Nat) : Json :=
  .number (.int n)

/-- An absent value is written as null. -/
def ofOption {α : Type} (f : α → Json) : Option α → Json
  | none => .null
  | some a => f a

def text? : Option String → Json :=
  ofOption .string

mutual

/-- How many arrays and objects lie inside each other, this one included. -/
def depth : Json → Nat
  | .array items => depthItems items + 1
  | .object fields => depthFields fields + 1
  | _ => 0

def depthItems : List Json → Nat
  | [] => 0
  | v :: rest => max (depth v) (depthItems rest)

def depthFields : List (String × Json) → Nat
  | [] => 0
  | (_, v) :: rest => max (depth v) (depthFields rest)

end

/-- Inserts a field into fields sorted by key; a field of the same key is replaced. -/
def insertField {α : Type} (key : String) (value : α) : List (String × α) → List (String × α)
  | [] => [(key, value)]
  | (k, v) :: rest =>
    if key < k then (key, value) :: (k, v) :: rest
    else if key = k then (key, value) :: rest
    else (k, v) :: insertField key value rest

/-- The object with these fields sorted by key, where the last of equal keys counts. -/
def sortedFields {α : Type} (fields : List (String × α)) : List (String × α) :=
  fields.foldl (fun acc (k, v) => insertField k v acc) []

def get? (fields : List (String × Json)) (key : String) : Option Json :=
  (fields.find? (·.1 = key)).map (·.2)

end Json

end CertAuthority
