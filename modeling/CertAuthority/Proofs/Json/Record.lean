import CertAuthority.Json.Codec
import CertAuthority.Proofs.Json.Parse
import CertAuthority.Proofs.Net.Address
import CertAuthority.Proofs.Time.Rfc3339

/-!
# Records and their fields

Each field of a record is found under its name, if the names are those that the reader knows and no
name stands twice.  What a reader finds in a tree is a part of the tree.  Instants, addresses and sets
of addresses, which stand in more than one kind of record, are read back from what was written.
-/

namespace CertAuthority.Json

/-- A reader goes on with what was found. -/
theorem bind_of_eq {α β : Type} {x : Option α} {a : α} (hx : x = some a) {next : α → Option β} :
    (x >>= next) = next a := by
  rw [hx]
  rfl

theorem natBelow_nat {bound n : Nat} (hn : n < bound) (level : Nat) :
    Reader.natBelow bound level (Tree.ofJson (.nat n)) = some n := by
  have hfits : (0 : Int) ≤ n ∧ (n : Int) < bound := ⟨Int.natCast_nonneg n, Int.ofNat_lt.mpr hn⟩
  exact if_pos hfits

theorem lt_of_natBelow {bound level n : Nat} {t : Tree}
    (hread : Reader.natBelow bound level t = some n) : n < bound := by
  unfold Reader.natBelow at hread
  split at hread
  · obtain ⟨hfits, hread⟩ := Option.ite_none_right_eq_some.mp hread
    cases hread
    omega
  · cases hread

namespace Fields

variable {names : List String} {closed : Bool} {level : Nat}

/-- That fields are found under their names, one level into a record. -/
structure Gives (f : Fields) (level : Nat) (fields : List (String × Json)) : Prop where
  level_eq : f.level = level
  find?_eq : ∀ name v, (name, v) ∈ fields → f.find? name = some (Tree.ofJson v)

/-- The fields of an object as its tree has them. -/
def shown (fields : List (String × Json)) : List (String × Tree) :=
  fields.map fun (name, v) => (name, Tree.ofJson v)

theorem collect_fieldsOfJson {fields : List (String × Json)}
    (hknown : ∀ field ∈ fields, field.1 ∈ names) (hdistinct : (fields.map (·.1)).Nodup) :
    collect names closed (Tree.fieldsOfJson fields) = some (shown fields) := by
  induction fields with
  | nil => rfl
  | cons field fields ih =>
      obtain ⟨name, v⟩ := field
      obtain ⟨hnew, hdistinct⟩ := List.nodup_cons.mp hdistinct
      have hrest := ih (fun field hfield => hknown field (List.mem_cons_of_mem _ hfield)) hdistinct
      have hname : names.contains name = true := by
        simpa using hknown (name, v) List.mem_cons_self
      have hfresh : (shown fields).any (fun field => field.1 = name) = false := by
        rw [List.any_eq_false]
        intro field hfield heq
        obtain ⟨found, hfound, rfl⟩ := List.mem_map.mp hfield
        exact hnew (List.mem_map.mpr ⟨found, hfound, by simpa using heq⟩)
      simp only [Tree.fieldsOfJson, collect, hrest, hname, hfresh, if_true, Bool.false_eq_true,
        if_false]
      rfl

theorem find?_shown {fields : List (String × Json)} (hdistinct : (fields.map (·.1)).Nodup)
    {name : String} {v : Json} (hmem : (name, v) ∈ fields) :
    (shown fields).find? (fun field => field.1 = name) = some (name, Tree.ofJson v) := by
  induction fields with
  | nil => cases hmem
  | cons field fields ih =>
      obtain ⟨hnew, hdistinct⟩ := List.nodup_cons.mp hdistinct
      rcases List.mem_cons.mp hmem with rfl | hlater
      · exact List.find?_cons_of_pos (by simp)
      · have hother : field.1 ≠ name := by
          rintro rfl
          exact hnew (List.mem_map.mpr ⟨_, hlater, rfl⟩)
        rw [shown, List.map_cons, List.find?_cons_of_neg (by simpa using hother)]
        exact ih hdistinct hlater

/-- A record is read, and all its fields are found. -/
theorem read_ofJson (names : List String) (closed : Bool) (level : Nat)
    (fields : List (String × Json)) (hknown : ∀ field ∈ fields, field.1 ∈ names)
    (hdistinct : (fields.map (·.1)).Nodup) :
    ∃ f, Fields.read names closed (level + 1) (Tree.ofJson (.object fields)) = some f ∧
      f.Gives level fields := by
  refine ⟨⟨level, shown fields, false⟩, ?_, rfl, fun name v hmem => ?_⟩
  · rw [Tree.ofJson, Fields.read, collect_fieldsOfJson hknown hdistinct]
    rfl
  · rw [find?, find?_shown hdistinct hmem]
    rfl

variable {α : Type} {f : Fields} {fields : List (String × Json)} {name : String} {v : Json}

theorem Gives.required (hf : f.Gives level fields) (hmem : (name, v) ∈ fields) (r : Reader α) :
    f.required name r = r level (Tree.ofJson v) := by
  rw [Fields.required, hf.find?_eq name v hmem, hf.level_eq]

theorem Gives.defaulted (hf : f.Gives level fields) (hmem : (name, v) ∈ fields) (r : Reader α)
    (value : α) : f.defaulted name r value = r level (Tree.ofJson v) := by
  rw [Fields.defaulted, hf.find?_eq name v hmem, hf.level_eq]

theorem Gives.optional (hf : f.Gives level fields) (hmem : (name, v) ∈ fields) (r : Reader α) :
    f.optional name r = Reader.option r level (Tree.ofJson v) := by
  rw [Fields.optional, hf.find?_eq name v hmem, hf.level_eq]

theorem option_of_ne_null {t : Tree} (ht : t ≠ .null) (r : Reader α) (level : Nat) :
    Reader.option r level t = (r level t).map some := by
  cases t with
  | null => exact absurd rfl ht
  | bool b => rfl
  | number n => rfl
  | string s => rfl
  | array items => rfl
  | object fields => rfl

/-- A field that may be null is read back, if it is read back and not null when it is there. -/
theorem Gives.optional_some [Codec α] {found : Option α} (hf : f.Gives level fields)
    (hmem : (name, writeOption found) ∈ fields)
    (hread : ∀ a, found = some a → Tree.ofJson (Codec.write a) ≠ .null ∧
      Codec.read level (Tree.ofJson (Codec.write a)) = some a) :
    f.optional name Codec.read = some found := by
  rw [hf.optional hmem]
  cases found with
  | none => rfl
  | some a =>
      obtain ⟨hnull, hread⟩ := hread a rfl
      change Reader.option Codec.read level (Tree.ofJson (Codec.write a)) = _
      rw [option_of_ne_null hnull, hread, Option.map_some]

/-- So is one that is written as a text when it is there. -/
theorem Gives.optional_text [Codec α] {found : Option α} (hf : f.Gives level fields)
    (hmem : (name, writeOption found) ∈ fields)
    (htext : ∀ a, found = some a → ∃ s, Codec.write a = .string s ∧
      Codec.read level (.string (some s)) = some a) :
    f.optional name Codec.read = some found := by
  refine hf.optional_some hmem fun a ha => ?_
  obtain ⟨s, hwrite, hread⟩ := htext a ha
  rw [hwrite]
  exact ⟨nofun, hread⟩

end Fields

section Parts

variable {numbers : JsonNumber → Prop}

theorem Tree.allItems_iff {items : List Tree} :
    Tree.AllItems numbers items ↔ ∀ t ∈ items, t.All numbers := by
  induction items with
  | nil => simp [Tree.AllItems]
  | cons t items ih => simp [Tree.AllItems, ih]

theorem Tree.allFields_iff {fields : List (Option String × Tree)} :
    Tree.AllFields numbers fields ↔ ∀ field ∈ fields, field.2.All numbers := by
  induction fields with
  | nil => simp [Tree.AllFields]
  | cons field fields ih =>
      obtain ⟨key, t⟩ := field
      simp [Tree.AllFields, ih]

namespace Fields

variable {names : List String} {closed : Bool} {level : Nat} {t : Tree} {f : Fields}

theorem all_of_collect {fields : List (Option String × Tree)} {given : List (String × Tree)}
    (hall : Tree.AllFields numbers fields) (hread : collect names closed fields = some given) :
    ∀ field ∈ given, field.2.All numbers := by
  induction fields generalizing given with
  | nil =>
      cases hread
      exact nofun
  | cons field fields ih =>
      obtain ⟨key, t⟩ := field
      cases key with
      | none => cases hread
      | some key =>
          unfold collect at hread
          split at hread
          · cases hread
          · next rest hrest =>
              have hlater := ih hall.2 hrest
              split at hread
              · split at hread
                · cases hread
                · cases hread
                  exact List.forall_mem_cons.mpr ⟨hall.1, hlater⟩
              · split at hread
                · cases hread
                · cases hread
                  exact hlater

/-- What is given as a field is a part of the tree, one level into it. -/
theorem all_of_read (hall : t.All numbers) (hread : Fields.read names closed level t = some f) :
    f.level < level ∧ ∀ field ∈ f.given, field.2.All numbers := by
  unfold Fields.read at hread
  split at hread
  · obtain ⟨given, hgiven, rfl⟩ := Option.map_eq_some_iff.mp hread
    exact ⟨Nat.lt_succ_self _, all_of_collect hall hgiven⟩
  · next level items =>
      split at hread
      · cases hread
        refine ⟨Nat.lt_succ_self _, fun field hfield => ?_⟩
        exact Tree.allItems_iff.mp hall _ (List.of_mem_zip hfield).2
      · cases hread
  · cases hread

theorem mem_given_of_find? {name : String} {found : Tree} (hfind : f.find? name = some found) :
    ∃ key, (key, found) ∈ f.given := by
  obtain ⟨⟨key, t⟩, hfield, rfl⟩ := Option.map_eq_some_iff.mp hfind
  exact ⟨key, List.mem_of_find?_eq_some hfield⟩

variable {α : Type} {r : Reader α} {name : String} {a : α}

/-- What is read of a field is read from a part of the tree. -/
theorem exists_of_required (hread : f.required name r = some a) :
    ∃ field ∈ f.given, r f.level field.2 = some a := by
  unfold Fields.required at hread
  split at hread
  · next t hfind =>
      obtain ⟨key, hmem⟩ := mem_given_of_find? hfind
      exact ⟨_, hmem, hread⟩
  · cases hread

theorem exists_of_defaulted {value : α} (hread : f.defaulted name r value = some a) :
    a = value ∨ ∃ field ∈ f.given, r f.level field.2 = some a := by
  unfold Fields.defaulted at hread
  split at hread
  · next t hfind =>
      obtain ⟨key, hmem⟩ := mem_given_of_find? hfind
      exact .inr ⟨_, hmem, hread⟩
  · exact .inl (Option.some.inj hread).symm

theorem exists_of_optional (hread : f.optional name r = some (some a)) :
    ∃ field ∈ f.given, r f.level field.2 = some a := by
  unfold Fields.optional at hread
  split at hread
  · next t hfind =>
      obtain ⟨key, hmem⟩ := mem_given_of_find? hfind
      unfold Reader.option at hread
      split at hread
      · cases hread
      · obtain ⟨found, hfound, heq⟩ := Option.map_eq_some_iff.mp hread
        cases heq
        exact ⟨_, hmem, hfound⟩
  · split at hread <;> cases hread

end Fields

/-- What is read as an entry of an object is read from one of its fields. -/
theorem exists_of_entries {α : Type} {r : Reader α} {level : Nat} {t : Tree}
    {entries : List (String × α)} (hread : Reader.entries r level t = some entries) :
    ∃ inner fields, level = inner + 1 ∧ t = .object fields ∧
      ∀ entry ∈ entries, ∃ field ∈ fields, r inner field.2 = some entry.2 := by
  unfold Reader.entries at hread
  split at hread
  · next inner fields =>
      refine ⟨inner, fields, rfl, rfl, ?_⟩
      induction fields generalizing entries with
      | nil =>
          cases hread
          exact List.forall_mem_nil _
      | cons field fields ih =>
          rw [List.mapM_cons] at hread
          obtain ⟨first, hfirst, hread⟩ := Option.bind_eq_some_iff.mp hread
          obtain ⟨rest, hrest, hread⟩ := Option.bind_eq_some_iff.mp hread
          cases hread
          refine List.forall_mem_cons.mpr ⟨?_, fun entry hentry => ?_⟩
          · dsimp only at hfirst
            split at hfirst
            · next hvalue =>
                cases hfirst
                exact ⟨field, List.mem_cons_self, hvalue⟩
            · cases hfirst
          · obtain ⟨later, hlater, hvalue⟩ := ih hrest entry hentry
            exact ⟨later, List.mem_cons_of_mem _ hlater, hvalue⟩
  · cases hread

end Parts

section Meanings

theorem parsed_string {α : Type} (f : String → Option α) (level : Nat) (s : String) :
    Reader.parsed f level (.string (some s)) = f s :=
  rfl

theorem read_instant {t : Instant} (ht : t.IsValid) (level : Nat) :
    Codec.read level (.string (some (Time.render t))) = some t := by
  rw [show (Codec.read : Reader Instant) = Reader.parsed Time.parse from rfl, parsed_string,
    Time.parse_render ht]

theorem read_address (x : IpAddress) (level : Nat) :
    Codec.read level (.string (some x.render)) = some x := by
  rw [show (Codec.read : Reader IpAddress) = Reader.parsed IpAddress.parse from rfl, parsed_string,
    IpAddress.parse_render]

/-- What may be null can be written as text, if it is written as a text when it is there. -/
theorem all_writeOption {α : Type} [Codec α] {found : Option α}
    (hwrite : ∀ a : α, ∃ s, Codec.write a = .string s) :
    (writeOption found).All Writes fun _ => True := by
  cases found with
  | none => trivial
  | some a =>
      obtain ⟨s, hs⟩ := hwrite a
      change (Codec.write a).All Writes fun _ => True
      rw [hs]
      trivial

theorem isValid_of_read {level : Nat} {t : Tree} {found : Instant}
    (hread : Codec.read level t = some found) : found.IsValid := by
  change Reader.parsed Time.parse level t = some found at hread
  unfold Reader.parsed at hread
  split at hread
  · exact Time.isValid_of_parse hread
  · cases hread

/-- An instant that may be absent is one if it is there. -/
theorem isValid_of_optional {f : Fields} {name : String} {found : Option Instant}
    (hread : f.optional name Codec.read = some found) : ∀ t, found = some t → t.IsValid := by
  rintro t rfl
  obtain ⟨field, -, hfield⟩ := Fields.exists_of_optional hread
  exact isValid_of_read hfield

end Meanings


section AddressSets

open IpAddress (insertSorted)

theorem insertSorted_of_last {x : IpAddress} {ys : List IpAddress} (hlast : ∀ y ∈ ys, y < x) :
    insertSorted x ys = ys ++ [x] := by
  induction ys with
  | nil => rfl
  | cons y ys ih =>
      have hbefore : y < x := hlast y List.mem_cons_self
      have hnot : ¬ x < y := fun hafter => by
        have hself := IpAddress.lt_trans hbefore hafter
        change _ ∨ _ at hself
        omega
      rw [insertSorted, if_neg hnot, if_pos hbefore,
        ih fun z hz => hlast z (List.mem_cons_of_mem _ hz), List.cons_append]

/-- The set of the addresses of a set is that set. -/
theorem ofList_addresses (set : AddressSet) : AddressSet.ofList set.addresses = set := by
  -- What has been inserted so far comes before all that is left.
  have hfold (xs : List IpAddress) (acc : AddressSet)
      (hascending : (acc.addresses ++ xs).Pairwise (· < ·)) :
      (xs.foldl AddressSet.insert acc).addresses = acc.addresses ++ xs := by
    induction xs generalizing acc with
    | nil => rw [List.foldl_nil, List.append_nil]
    | cons x xs ih =>
        have hlast : ∀ y ∈ acc.addresses, y < x := fun y hy =>
          (List.pairwise_append.mp hascending).2.2 y hy x List.mem_cons_self
        have hinsert : (acc.insert x).addresses = acc.addresses ++ [x] := insertSorted_of_last hlast
        rw [List.foldl_cons, ih _ (by rw [hinsert]; simpa using hascending), hinsert,
          List.append_assoc, List.singleton_append]
  have haddresses := hfold set.addresses .empty set.ascending
  obtain ⟨addresses, hascending⟩ := set
  rw [AddressSet.ofList]
  generalize List.foldl AddressSet.insert AddressSet.empty addresses = found at haddresses
  obtain ⟨found, hfound⟩ := found
  cases haddresses
  rfl

theorem mapM_read_addresses (xs : List IpAddress) (level : Nat) :
    (Tree.itemsOfJson (xs.map Codec.write)).mapM (Codec.read level) = some xs := by
  induction xs with
  | nil => rfl
  | cons x xs ih =>
      have hfirst : Codec.read level (Tree.ofJson (Codec.write x)) = some x := read_address x level
      rw [List.map_cons, Tree.itemsOfJson, List.mapM_cons, bind_of_eq hfirst, bind_of_eq ih]
      rfl

/-- A set of addresses opens a level of its own. -/
theorem read_addressSet (set : AddressSet) (level : Nat) :
    Codec.read (level + 1) (Tree.ofJson (Codec.write set)) = some set := by
  change ((Tree.itemsOfJson (set.addresses.map Codec.write)).mapM (Codec.read level)).map
    AddressSet.ofList = _
  rw [mapM_read_addresses, Option.map_some, ofList_addresses]

theorem all_addressSet (set : AddressSet) : (Codec.write set).All Writes fun _ => True := by
  change AllItems Writes _ (set.addresses.map Codec.write)
  induction set.addresses with
  | nil => trivial
  | cons x xs ih => exact ⟨trivial, ih⟩

end AddressSets

end CertAuthority.Json
