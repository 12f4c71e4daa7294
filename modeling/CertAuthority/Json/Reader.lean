import CertAuthority.Json.Tree

/-!
# Reading values out of JSON

A reader takes a tree and the number of arrays and objects it may still open.  Text allows
127 of them inside each other; parts that a reader skips are not counted.  A record is an
object whose known fields occur once each, or an array of all its fields in order.
-/

namespace CertAuthority.Json

/-- Reads a value, given how many more levels may be opened. -/
abbrev Reader (α : Type) := Nat → Tree → Option α

/-- The levels that a text may open. -/
def textLevels : Nat := 127

namespace Tree

mutual

/-- The value that a tree denotes: fields sorted by key, the last of equal keys counts. -/
def toJson? : Nat → Tree → Option Json
  | _, .null => some .null
  | _, .bool b => some (.bool b)
  | _, .number n => n.map .number
  | _, .string s => s.map .string
  | 0, .array _ => none
  | level + 1, .array items => (itemsToJson? level items).map .array
  | 0, .object _ => none
  | level + 1, .object fields =>
    (fieldsToJson? level fields).map fun fs => .object (sortedFields fs)

def itemsToJson? (level : Nat) : List Tree → Option (List Json)
  | [] => some []
  | t :: rest =>
    match toJson? level t, itemsToJson? level rest with
    | some v, some vs => some (v :: vs)
    | _, _ => none

def fieldsToJson? (level : Nat) : List (Option String × Tree) → Option (List (String × Json))
  | [] => some []
  | (k, t) :: rest =>
    match k, toJson? level t, fieldsToJson? level rest with
    | some k, some v, some fs => some ((k, v) :: fs)
    | _, _, _ => none

end

mutual

/-- The tree of a value. -/
def ofJson : Json → Tree
  | .null => .null
  | .bool b => .bool b
  | .number n => .number (some n)
  | .string s => .string (some s)
  | .array items => .array (itemsOfJson items)
  | .object fields => .object (fieldsOfJson fields)

def itemsOfJson : List Json → List Tree
  | [] => []
  | v :: rest => ofJson v :: itemsOfJson rest

def fieldsOfJson : List (String × Json) → List (Option String × Tree)
  | [] => []
  | (k, v) :: rest => (some k, ofJson v) :: fieldsOfJson rest

end

end Tree

namespace Reader

/-- Reads any value. -/
def json : Reader Json :=
  Tree.toJson?

def text : Reader String
  | _, .string s => s
  | _, _ => none

/-- A text with a meaning of its own. -/
def parsed {α : Type} (f : String → Option α) : Reader α
  | _, .string (some s) => f s
  | _, _ => none

def bool : Reader Bool
  | _, .bool b => some b
  | _, _ => none

/-- An integer from 0 up to, not including, `bound`. -/
def natBelow (bound : Nat) : Reader Nat
  | _, .number (some (.int n)) => if 0 ≤ n ∧ n < bound then some n.toNat else none
  | _, _ => none

/-- An integer of 64 bits with a sign. -/
def int64 : Reader Int
  | _, .number (some (.int n)) => if -Nat.pow 2 63 ≤ n ∧ n < Nat.pow 2 63 then some n else none
  | _, _ => none

/-- A value that may be null. -/
def option {α : Type} (r : Reader α) : Reader (Option α)
  | _, .null => some none
  | level, t => (r level t).map some

def array {α : Type} (r : Reader α) : Reader (List α)
  | level + 1, .array items => items.mapM (r level)
  | _, _ => none

/-- An object of entries of one kind: keys with their values in the order of the text. -/
def entries {α : Type} (r : Reader α) : Reader (List (String × α))
  | level + 1, .object fields =>
    fields.mapM fun (k, t) =>
      match k, r level t with
      | some k, some a => some (k, a)
      | _, _ => none
  | _, _ => none

end Reader

/-- The fields of a record as they were given. -/
structure Fields where
  level : Nat
  given : List (String × Tree)
  /-- Given by position, so that none may be left out. -/
  positional : Bool

namespace Fields

/-- Splits off the known fields of an object.  A known field that occurs twice, a key without
a text and, if `closed`, an unknown key are refused. -/
def collect (names : List String) (closed : Bool) :
    List (Option String × Tree) → Option (List (String × Tree))
  | [] => some []
  | (none, _) :: _ => none
  | (some k, t) :: rest =>
    match collect names closed rest with
    | none => none
    | some given =>
      if names.contains k then
        if (given.any fun field => field.1 = k) then none else some ((k, t) :: given)
      else if closed then none else some given

/-- The fields of a record with these field names, in this order. -/
def read (names : List String) (closed : Bool) : Reader Fields
  | level + 1, .object fields =>
    (collect names closed fields).map fun given => ⟨level, given, false⟩
  | level + 1, .array items =>
    if items.length ≤ names.length then some ⟨level, names.zip items, true⟩ else none
  | _, _ => none

def find? (f : Fields) (name : String) : Option Tree :=
  (f.given.find? fun field => field.1 = name).map (·.2)

def required {α : Type} (f : Fields) (name : String) (r : Reader α) : Option α :=
  match f.find? name with
  | some t => r f.level t
  | none => none

/-- A field that may be null, or be left out of an object. -/
def optional {α : Type} (f : Fields) (name : String) (r : Reader α) : Option (Option α) :=
  match f.find? name with
  | some t => Reader.option r f.level t
  | none => if f.positional then none else some none

/-- A field that has a value of its own when it is left out. -/
def defaulted {α : Type} (f : Fields) (name : String) (r : Reader α) (value : α) : Option α :=
  match f.find? name with
  | some t => r f.level t
  | none => some value

end Fields

/-- One alternative of several: a bare name, or an object whose only key is the name. -/
def alternative : Reader (String × Option Tree × Nat)
  | level, .string (some s) => some (s, none, level)
  | level + 1, .object [(some k, t)] => some (k, some t, level)
  | _, _ => none

/-- The content of an alternative without details. -/
def Tree.isBare : Option Tree → Bool
  | none | some .null => true
  | _ => false

/-- Reads a text that is one value with blanks around it. -/
def readText {α : Type} (r : Reader α) (text : String) : Option α :=
  (Tree.parse text).bind (r textLevels)

/-- Reads a value that is already at hand; its depth is no obstacle. -/
def readValue {α : Type} (r : Reader α) (v : Json) : Option α :=
  r v.depth (Tree.ofJson v)

end CertAuthority.Json
