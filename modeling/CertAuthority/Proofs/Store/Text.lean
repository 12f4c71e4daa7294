import CertAuthority.Proofs.Bytes.Utf8
import CertAuthority.Proofs.Json.Record
import CertAuthority.Proofs.Json.Text
import CertAuthority.Proofs.Store.Entries
import CertAuthority.Store.Snapshot

/-!
# Tables as text

A table that was written is read with all its keys and revisions.  Each value is what its own text
tells at the levels that a table leaves to it; if one value tells nothing, the table is not read.
-/

namespace CertAuthority

open Json (Codec Reader Fields)

variable {α : Type} [Codec α]

/-- An entry is read with its revision, and with what the text of its value tells. -/
theorem Versioned.read_retold {entry : Versioned α} (hrevision : entry.revision < Nat.pow 2 64)
    (level : Nat) :
    Codec.read (level + 1) (Json.Tree.retold (Codec.write entry)) =
      (Codec.read level (Json.Tree.retold (Codec.write entry.value))).map fun value =>
        (⟨value, entry.revision⟩ : Versioned α) := by
  have hfits : (JsonNumber.int entry.revision).Fits := by
    rw [show Nat.pow 2 64 = 2 ^ 64 from rfl] at hrevision
    exact ⟨by omega, by omega⟩
  have hfields : Fields.read ["value", "revision"] false (level + 1)
      (Json.Tree.retold (Codec.write entry)) =
        some ⟨level, [("value", Json.Tree.retold (Codec.write entry.value)),
          ("revision", Json.Tree.retold (Json.nat entry.revision))], false⟩ := rfl
  have hnat : Reader.nat64 level (Json.Tree.retold (Json.nat entry.revision)) =
      some entry.revision := by
    rw [Json.nat, Json.Tree.retold, JsonNumber.retold_int hfits]
    exact Json.natBelow_nat hrevision level
  change (Fields.read ["value", "revision"] false (level + 1) _ >>= _) = _
  rw [Json.bind_of_eq hfields]
  change (Codec.read level _ >>= fun value => Reader.nat64 level _ >>= fun revision =>
    some (⟨value, revision⟩ : Versioned α)) = _
  rw [hnat]
  cases (Codec.read level (Json.Tree.retold (Codec.write entry.value)) : Option α) <;> rfl

namespace Snapshot

/-- The levels that a table and its entry leave to a value. -/
def valueLevels : Nat :=
  Json.textLevels - 2

/-- What the text of a value tells in a table. -/
def retold (v : α) : Option α :=
  (Json.Tree.parse (Json.toPrettyText (Codec.write v))).bind (Codec.read valueLevels)

/-- What is read of entries that were written. -/
def retoldEntries (entries : Entries α) : Option (Entries α) :=
  entries.mapM fun (key, entry) =>
    (retold entry.value).map fun value => (key, ⟨value, entry.revision⟩)

/-- That entries are as a table in a file holds them. -/
structure IsOrderly (entries : Entries α) : Prop where
  ascending : Json.Ascending entries
  revision : ∀ entry ∈ entries, entry.2.revision < Nat.pow 2 64

theorem retoldEntries_cons (key : String) (entry : Versioned α) (rest : Entries α) :
    retoldEntries ((key, entry) :: rest) = (retold entry.value).bind fun value =>
      (retoldEntries rest).map fun more => (key, ⟨value, entry.revision⟩) :: more := by
  rw [retoldEntries, List.mapM_cons, ← retoldEntries]
  dsimp only
  cases retold entry.value with
  | none => rfl
  | some value => cases retoldEntries rest <;> rfl

theorem retold_eq (v : α) :
    retold v = Codec.read valueLevels (Json.Tree.retold (Codec.write v)) := by
  rw [retold, Json.Tree.parse_toPrettyText, Option.bind_some]

/-- The entries as the fields of an object. -/
def written (entries : Entries α) : List (String × Json) :=
  entries.map fun (key, entry) => (key, Codec.write entry)

theorem entries_written {entries : Entries α}
    (hrevision : ∀ entry ∈ entries, entry.2.revision < Nat.pow 2 64) :
    Reader.entries (Codec.read (α := Versioned α)) Json.textLevels
      (Json.Tree.retold (.object (written entries))) = retoldEntries entries := by
  change (Json.Tree.retoldFields (written entries)).mapM _ = _
  induction entries with
  | nil => rfl
  | cons head rest ih =>
      obtain ⟨key, entry⟩ := head
      obtain ⟨hhead, hrest⟩ := List.forall_mem_cons.mp hrevision
      have hread : Codec.read 126 (Json.Tree.retold (Codec.write entry)) =
          (retold entry.value).map fun value => (⟨value, entry.revision⟩ : Versioned α) := by
        rw [retold_eq]
        exact Versioned.read_retold hhead 125
      rw [written, List.map_cons, Json.Tree.retoldFields, List.mapM_cons, ← written, ih hrest,
        retoldEntries_cons]
      simp only [hread]
      cases retold entry.value with
      | none => rfl
      | some value => cases retoldEntries rest <;> rfl

/-- A text that begins with a brace is not blank. -/
theorem not_isBlank_of_brace (cs : List Char) :
    (Bytes.ofString (String.ofList ('\x7b' :: cs))).all isBlank = false := by
  rw [Bytes.ofString, String.toList_ofList, List.flatMap_cons, List.all_append]
  rfl

theorem not_isBlank_encode (entries : Entries α) : (encode entries).all isBlank = false := by
  cases entries with
  | nil => exact not_isBlank_of_brace _
  | cons head rest => exact not_isBlank_of_brace _

variable {entries later : Entries α}

theorem keys_of_retoldEntries (hretold : retoldEntries entries = some later) :
    later.map (·.1) = entries.map (·.1) := by
  induction entries generalizing later with
  | nil =>
      cases hretold
      rfl
  | cons head rest ih =>
      obtain ⟨key, entry⟩ := head
      rw [retoldEntries_cons] at hretold
      obtain ⟨value, -, hretold⟩ := Option.bind_eq_some_iff.mp hretold
      obtain ⟨more, hmore, rfl⟩ := Option.map_eq_some_iff.mp hretold
      rw [List.map_cons, List.map_cons, ih hmore]

/-- A table that was written is read entry by entry. -/
theorem decode_encode (horderly : IsOrderly entries) :
    decode (encode entries) = retoldEntries entries := by
  have hread := entries_written horderly.revision
  rw [decode, not_isBlank_encode, if_neg Bool.false_ne_true, encode, ← written,
    Bytes.toString?_ofString, Option.bind_some, Json.readText, Json.Tree.parse_toPrettyText,
    Option.bind_some, read, hread]
  cases hretold : retoldEntries entries with
  | none => rfl
  | some later =>
      have hascending : Json.Ascending later := by
        rw [Json.Ascending, keys_of_retoldEntries hretold]
        exact horderly.ascending
      rw [Option.map_some, hascending.sortedFields_eq]

/-- What is read under a key has the revision that was written there. -/
theorem revision_of_retoldEntries (hretold : retoldEntries entries = some later) (key : String) :
    (later.find? key).map (·.revision) = (entries.find? key).map (·.revision) := by
  induction entries generalizing later with
  | nil =>
      cases hretold
      rfl
  | cons head rest ih =>
      obtain ⟨first, entry⟩ := head
      rw [retoldEntries_cons] at hretold
      obtain ⟨value, -, hretold⟩ := Option.bind_eq_some_iff.mp hretold
      obtain ⟨more, hmore, rfl⟩ := Option.map_eq_some_iff.mp hretold
      rw [Entries.find?_cons, Entries.find?_cons]
      split
      · rfl
      · exact ih hmore

/-- That the text of a value tells that value, at the levels that a table leaves to it. -/
def IsFaithful (v : α) : Prop :=
  retold v = some v

/-- If the text of each value tells that value, a table is read as it was written. -/
theorem retoldEntries_of_faithful
    (hfaithful : ∀ entry ∈ entries, IsFaithful entry.2.value) :
    retoldEntries entries = some entries := by
  induction entries with
  | nil => rfl
  | cons head rest ih =>
      obtain ⟨hhead, hrest⟩ := List.forall_mem_cons.mp hfaithful
      rw [retoldEntries_cons, ih hrest, hhead]
      rfl

/-- What is read as an entry has a revision of 64 bits. -/
theorem revision_of_read {level : Nat} {t : Json.Tree} {entry : Versioned α}
    (hread : Codec.read level t = some entry) : entry.revision < Nat.pow 2 64 := by
  obtain ⟨f, -, hread⟩ := Option.bind_eq_some_iff.mp hread
  obtain ⟨value, -, hread⟩ := Option.bind_eq_some_iff.mp hread
  obtain ⟨revision, hrevision, hread⟩ := Option.bind_eq_some_iff.mp hread
  cases hread
  obtain ⟨field, -, hfield⟩ := Fields.exists_of_required hrevision
  exact Json.lt_of_natBelow hfield

theorem revision_of_entries {level : Nat} {t : Json.Tree}
    (hread : Reader.entries Codec.read level t = some entries) :
    ∀ entry ∈ entries, entry.2.revision < Nat.pow 2 64 := by
  obtain ⟨inner, fields, rfl, rfl, hmem⟩ := Json.exists_of_entries hread
  intro entry hentry
  obtain ⟨field, -, hvalue⟩ := hmem entry hentry
  exact revision_of_read hvalue

/-- What is read of a file is orderly. -/
theorem isOrderly_of_decode {content : Bytes} (hread : decode content = some entries) :
    IsOrderly entries := by
  unfold decode at hread
  split at hread
  · cases hread
    exact ⟨List.Pairwise.nil, List.forall_mem_nil _⟩
  · obtain ⟨text, -, hread⟩ := Option.bind_eq_some_iff.mp hread
    obtain ⟨t, -, hread⟩ := Option.bind_eq_some_iff.mp hread
    obtain ⟨given, hgiven, rfl⟩ := Option.map_eq_some_iff.mp hread
    exact ⟨Json.ascending_sortedFields given, fun entry hentry =>
      revision_of_entries hgiven entry (Json.mem_of_mem_sortedFields hentry)⟩

end Snapshot

end CertAuthority
