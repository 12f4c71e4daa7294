import CertAuthority.Json.Reader
import CertAuthority.Proofs.Json.Fields
import Mathlib.Algebra.Group.Int.Defs

/-!
# Values and their trees

A value is read back from its tree if and only if the tree is not nested deeper than the reader
allows.  What a reader makes of a tree is a value in its own right: the fields of its objects
ascend, and it is not nested deeper than allowed.
-/

namespace CertAuthority

/-- Whether an integer has 64 bits, with or without a sign; doubles have no bound. -/
def JsonNumber.Fits : JsonNumber → Prop
  | .int n => -(2 : Int) ^ 63 ≤ n ∧ n < 2 ^ 64
  | .float _ => True

def JsonNumber.IsInteger : JsonNumber → Prop
  | .int _ => True
  | .float _ => False

namespace Json

mutual

/-- That all numbers in a value are of a kind, and the keys of all objects in it. -/
def All (numbers : JsonNumber → Prop) (keys : List String → Prop) : Json → Prop
  | .number n => numbers n
  | .array items => AllItems numbers keys items
  | .object fields => keys (fields.map (·.1)) ∧ AllFields numbers keys fields
  | _ => True

def AllItems (numbers : JsonNumber → Prop) (keys : List String → Prop) : List Json → Prop
  | [] => True
  | v :: rest => All numbers keys v ∧ AllItems numbers keys rest

def AllFields (numbers : JsonNumber → Prop) (keys : List String → Prop) :
    List (String × Json) → Prop
  | [] => True
  | (_, v) :: rest => All numbers keys v ∧ AllFields numbers keys rest

end

/-- Keys ascend, and none stands twice. -/
def AscendingKeys (keys : List String) : Prop :=
  keys.Pairwise (· < ·)

/-- What a program holds as a value: integers have 64 bits, and the fields of objects ascend. -/
def IsValue (v : Json) : Prop :=
  v.All JsonNumber.Fits AscendingKeys

/-- Whether all numbers in a value are integers. -/
def IsIntegral (v : Json) : Prop :=
  v.All JsonNumber.IsInteger fun _ => True

section All

variable {numbers more : JsonNumber → Prop} {keys moreKeys : List String → Prop}

mutual

/-- What is known of the numbers in a value may be known for several reasons. -/
theorem All.and : {v : Json} → v.All numbers keys → v.All more moreKeys →
    v.All (fun n => numbers n ∧ more n) keys
  | .null, _, _ => trivial
  | .bool _, _, _ => trivial
  | .string _, _, _ => trivial
  | .number _, hfirst, hsecond => ⟨hfirst, hsecond⟩
  | .array _, hfirst, hsecond => AllItems.and hfirst hsecond
  | .object _, hfirst, hsecond => ⟨hfirst.1, AllFields.and hfirst.2 hsecond.2⟩

theorem AllItems.and : {items : List Json} → AllItems numbers keys items →
    AllItems more moreKeys items → AllItems (fun n => numbers n ∧ more n) keys items
  | [], _, _ => trivial
  | _ :: _, hfirst, hsecond => ⟨hfirst.1.and hsecond.1, AllItems.and hfirst.2 hsecond.2⟩

theorem AllFields.and : {fields : List (String × Json)} → AllFields numbers keys fields →
    AllFields more moreKeys fields → AllFields (fun n => numbers n ∧ more n) keys fields
  | [], _, _ => trivial
  | _ :: _, hfirst, hsecond => ⟨hfirst.1.and hsecond.1, AllFields.and hfirst.2 hsecond.2⟩

end

mutual

/-- What is known of the numbers and the keys in a value may be weakened. -/
theorem All.mono (hnumbers : ∀ n, numbers n → more n) (hkeys : ∀ ks, keys ks → moreKeys ks) :
    {v : Json} → v.All numbers keys → v.All more moreKeys
  | .null, _ => trivial
  | .bool _, _ => trivial
  | .string _, _ => trivial
  | .number n, hall => hnumbers n hall
  | .array _, hall => AllItems.mono hnumbers hkeys hall
  | .object _, hall => ⟨hkeys _ hall.1, AllFields.mono hnumbers hkeys hall.2⟩

theorem AllItems.mono (hnumbers : ∀ n, numbers n → more n)
    (hkeys : ∀ ks, keys ks → moreKeys ks) :
    {items : List Json} → AllItems numbers keys items → AllItems more moreKeys items
  | [], _ => trivial
  | _ :: _, hall => ⟨All.mono hnumbers hkeys hall.1, AllItems.mono hnumbers hkeys hall.2⟩

theorem AllFields.mono (hnumbers : ∀ n, numbers n → more n)
    (hkeys : ∀ ks, keys ks → moreKeys ks) :
    {fields : List (String × Json)} → AllFields numbers keys fields →
      AllFields more moreKeys fields
  | [], _ => trivial
  | _ :: _, hall => ⟨All.mono hnumbers hkeys hall.1, AllFields.mono hnumbers hkeys hall.2⟩

end

theorem allFields_iff {fields : List (String × Json)} :
    AllFields numbers keys fields ↔ ∀ field ∈ fields, field.2.All numbers keys := by
  induction fields with
  | nil => simp [AllFields]
  | cons field fields ih =>
      obtain ⟨key, v⟩ := field
      simp [AllFields, ih]

end All

theorem depthFields_le_iff {fields : List (String × Json)} {level : Nat} :
    depthFields fields ≤ level ↔ ∀ field ∈ fields, field.2.depth ≤ level := by
  induction fields with
  | nil => simp [depthFields]
  | cons field fields ih =>
      obtain ⟨key, v⟩ := field
      simp only [depthFields, Nat.max_le, ih, List.forall_mem_cons]

namespace Tree

mutual

/-- A value is read back from its tree, if it is not nested too deep. -/
theorem toJson?_ofJson {numbers : JsonNumber → Prop} (level : Nat) :
    (v : Json) → v.All numbers AscendingKeys →
      toJson? level (ofJson v) = if v.depth ≤ level then some v else none
  | .null, _ => by simp [ofJson, toJson?, depth]
  | .bool b, _ => by simp [ofJson, toJson?, depth]
  | .string s, _ => by simp [ofJson, toJson?, depth]
  | .number n, _ => by simp [ofJson, toJson?, depth]
  | .array items, hitems => by
      cases level with
      | zero => simp [ofJson, toJson?, depth]
      | succ level =>
          rw [ofJson, toJson?, itemsToJson?_itemsOfJson level items hitems, depth]
          simp only [Nat.add_le_add_iff_right]
          split <;> rfl
  | .object fields, hfields => by
      cases level with
      | zero => simp [ofJson, toJson?, depth]
      | succ level =>
          rw [ofJson, toJson?, fieldsToJson?_fieldsOfJson level fields hfields.2, depth]
          simp only [Nat.add_le_add_iff_right]
          split
          · rw [Option.map_some, Ascending.sortedFields_eq hfields.1]
          · rfl

theorem itemsToJson?_itemsOfJson {numbers : JsonNumber → Prop} (level : Nat) :
    (items : List Json) → AllItems numbers AscendingKeys items →
      itemsToJson? level (itemsOfJson items) =
        if depthItems items ≤ level then some items else none
  | [], _ => by simp [itemsOfJson, itemsToJson?, depthItems]
  | v :: rest, hall => by
      simp only [itemsOfJson, itemsToJson?, toJson?_ofJson level v hall.1,
        itemsToJson?_itemsOfJson level rest hall.2, depthItems, Nat.max_le]
      by_cases hv : v.depth ≤ level <;> by_cases hrest : depthItems rest ≤ level <;>
        simp [hv, hrest]

theorem fieldsToJson?_fieldsOfJson {numbers : JsonNumber → Prop} (level : Nat) :
    (fields : List (String × Json)) → AllFields numbers AscendingKeys fields →
      fieldsToJson? level (fieldsOfJson fields) =
        if depthFields fields ≤ level then some fields else none
  | [], _ => by simp [fieldsOfJson, fieldsToJson?, depthFields]
  | (key, v) :: rest, hall => by
      simp only [fieldsOfJson, fieldsToJson?, toJson?_ofJson level v hall.1,
        fieldsToJson?_fieldsOfJson level rest hall.2, depthFields, Nat.max_le]
      by_cases hv : v.depth ≤ level <;> by_cases hrest : depthFields rest ≤ level <;>
        simp [hv, hrest]

end

mutual

/-- That all numbers in a tree that have a value are of a kind. -/
def All (numbers : JsonNumber → Prop) : Tree → Prop
  | .number (some n) => numbers n
  | .array items => AllItems numbers items
  | .object fields => AllFields numbers fields
  | _ => True

def AllItems (numbers : JsonNumber → Prop) : List Tree → Prop
  | [] => True
  | t :: rest => All numbers t ∧ AllItems numbers rest

def AllFields (numbers : JsonNumber → Prop) : List (Option String × Tree) → Prop
  | [] => True
  | (_, t) :: rest => All numbers t ∧ AllFields numbers rest

end

/-- That a value is one as programs hold them, nested no deeper than allowed. -/
def Yields (numbers : JsonNumber → Prop) (level : Nat) (v : Json) : Prop :=
  v.All numbers AscendingKeys ∧ v.depth ≤ level

mutual

/-- What a tree is read as is a value, nested no deeper than the reader allows. -/
theorem yields_of_toJson? {numbers : JsonNumber → Prop} {level : Nat} {v : Json} :
    (t : Tree) → t.All numbers → toJson? level t = some v → Yields numbers level v
  | .null, _, hread => by
      simp only [toJson?, Option.some.injEq] at hread
      subst hread
      exact ⟨trivial, Nat.zero_le _⟩
  | .bool b, _, hread => by
      simp only [toJson?, Option.some.injEq] at hread
      subst hread
      exact ⟨trivial, Nat.zero_le _⟩
  | .string s, _, hread => by
      obtain ⟨text, -, rfl⟩ := Option.map_eq_some_iff.mp hread
      exact ⟨trivial, Nat.zero_le _⟩
  | .number n, hall, hread => by
      obtain ⟨n, rfl, rfl⟩ := Option.map_eq_some_iff.mp hread
      exact ⟨hall, Nat.zero_le _⟩
  | .array items, hall, hread => by
      cases level with
      | zero => cases hread
      | succ level =>
          obtain ⟨vs, hvs, rfl⟩ := Option.map_eq_some_iff.mp hread
          obtain ⟨hvalues, hdepth⟩ := yields_of_itemsToJson? items hall hvs
          exact ⟨hvalues, Nat.succ_le_succ hdepth⟩
  | .object fields, hall, hread => by
      cases level with
      | zero => cases hread
      | succ level =>
          obtain ⟨vs, hvs, rfl⟩ := Option.map_eq_some_iff.mp hread
          have hyields := yields_of_fieldsToJson? fields hall hvs
          refine ⟨⟨ascending_sortedFields vs, allFields_iff.mpr fun field hfield => ?_⟩,
            Nat.succ_le_succ (depthFields_le_iff.mpr fun field hfield => ?_)⟩
          · exact (hyields field (mem_of_mem_sortedFields hfield)).1
          · exact (hyields field (mem_of_mem_sortedFields hfield)).2

theorem yields_of_itemsToJson? {numbers : JsonNumber → Prop} {level : Nat} {vs : List Json} :
    (items : List Tree) → AllItems numbers items → itemsToJson? level items = some vs →
      Json.AllItems numbers AscendingKeys vs ∧ depthItems vs ≤ level
  | [], _, hread => by
      simp only [itemsToJson?, Option.some.injEq] at hread
      subst hread
      exact ⟨trivial, Nat.zero_le _⟩
  | t :: rest, hall, hread => by
      unfold itemsToJson? at hread
      split at hread
      · next v vs hv hvs =>
          cases hread
          obtain ⟨hvalue, hdepth⟩ := yields_of_toJson? t hall.1 hv
          obtain ⟨hvalues, hdepths⟩ := yields_of_itemsToJson? rest hall.2 hvs
          exact ⟨⟨hvalue, hvalues⟩, Nat.max_le.mpr ⟨hdepth, hdepths⟩⟩
      · cases hread

theorem yields_of_fieldsToJson? {numbers : JsonNumber → Prop} {level : Nat}
    {vs : List (String × Json)} :
    (fields : List (Option String × Tree)) → AllFields numbers fields →
      fieldsToJson? level fields = some vs → ∀ field ∈ vs, Yields numbers level field.2
  | [], _, hread => by
      simp only [fieldsToJson?, Option.some.injEq] at hread
      subst hread
      exact nofun
  | (key, t) :: rest, hall, hread => by
      unfold fieldsToJson? at hread
      split at hread
      · next k v vs hkey hv hvs =>
          cases hread
          intro field hfield
          rcases List.mem_cons.mp hfield with rfl | hlater
          · exact yields_of_toJson? t hall.1 hv
          · exact yields_of_fieldsToJson? rest hall.2 hvs field hlater
      · cases hread

end

end Tree

end Json

end CertAuthority
