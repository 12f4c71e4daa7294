import CertAuthority.Host
import CertAuthority.Proofs.Office.Basic
import CertAuthority.Proofs.Store.Sorting
import CertAuthority.Proofs.Store.Twins
import Mathlib.Data.List.Nodup

/-!
# Lists of what a host enumerates

A host enumerates a table in an order of its own: one in memory in any order, one in a file by key.
Reading changes nothing, so that a host keeps to what it enumerates until somebody writes.

What is shown of the entries bears the keys as labels.  Sorted in any way it has one line for each
key that is there; and sorted by labels, it is the same for all orders.
-/

namespace CertAuthority

namespace Entries

open Sorting (IsComparison Separates latestThen latestThen_iff)

variable {α β : Type} {entries others : Entries α} {view : String × Versioned α → β}
variable {label : β → String}

/-- That what is shown of the entries is labelled by their keys, of which no two are the same. -/
structure Labelled (view : String × Versioned α → β) (label : β → String) (entries : Entries α) :
    Prop where
  distinct : entries.Distinct
  label : ∀ entry ∈ entries, label (view entry) = entry.1

namespace Labelled

/-- Labels are told by what is found under each key. -/
theorem of_find (hdistinct : entries.Distinct)
    (hlabel : ∀ key entry, entries.find? key = some entry → label (view (key, entry)) = key) :
    Labelled view label entries where
  distinct := hdistinct
  label entry hentry := hlabel entry.1 entry.2 (find?_eq_some_of_mem hdistinct hentry)

theorem perm (hothers : Labelled view label others) (hperm : entries.Perm others) :
    Labelled view label entries where
  distinct := hothers.distinct.perm hperm
  label entry hentry := hothers.label entry (hperm.mem_iff.mp hentry)

theorem map_label (hentries : Labelled view label entries) :
    (entries.map view).map label = entries.map (·.1) := by
  rw [List.map_map]
  exact List.map_congr_left hentries.label

theorem nodup_label (hentries : Labelled view label entries) :
    ((entries.map view).map label).Nodup := by
  rw [hentries.map_label]
  exact hentries.distinct

/-- What bears one label is the same. -/
theorem eq_of_label (hentries : Labelled view label entries) {a b : β} (ha : a ∈ entries.map view)
    (hb : b ∈ entries.map view) (heq : label a = label b) : a = b :=
  List.inj_on_of_nodup_map hentries.nodup_label ha hb heq

/-- A comparison that tells labels apart tells apart what is shown. -/
theorem separates (hentries : Labelled view label entries) {le : β → β → Bool}
    (hle : ∀ a b, le a b → le b a → label a = label b) : Separates le (entries.map view) :=
  fun a ha b hb hab hba => hentries.eq_of_label ha hb (hle a b hab hba)

/-- Sorted in whatever way, it has one line for each key that is there, and no other. -/
theorem filter_label (hentries : Labelled view label entries) (le : β → β → Bool) (key : String) :
    ((entries.map view).mergeSort le).filter (label · = key) =
      ((entries.find? key).map fun entry => view (key, entry)).toList := by
  have hunsorted : (entries.map view).filter (label · = key) =
      ((entries.find? key).map fun entry => view (key, entry)).toList := by
    have hlabels : entries.filter ((decide <| label · = key) ∘ view) =
        entries.filter (·.1 = key) := by
      refine List.filter_congr fun entry hentry => ?_
      rw [Function.comp_apply, hentries.label entry hentry]
    rw [List.filter_map, hlabels, filter_key hentries.distinct]
    cases entries.find? key <;> rfl
  have hperm := (List.mergeSort_perm (entries.map view) le).filter (label · = key)
  rw [hunsorted] at hperm
  cases hfind : entries.find? key with
  | none =>
      rw [hfind] at hperm
      exact hperm.eq_nil
  | some entry =>
      rw [hfind] at hperm
      exact hperm.eq_singleton

/-- Sorted in whatever way, no two lines bear one label. -/
theorem pairwise_label (hentries : Labelled view label entries) (le : β → β → Bool) :
    ((entries.map view).mergeSort le).Pairwise fun a b => label a ≠ label b :=
  List.pairwise_map.mp
    (((List.mergeSort_perm (entries.map view) le).map label).nodup_iff.mpr hentries.nodup_label)

/-- Sorted by time and then by labels, it is in one strict order. -/
theorem pairwise_latestThen (hentries : Labelled view label entries) (time : β → Instant)
    {tie : β → β → Bool} (htie : IsComparison tie) :
    ((entries.map view).mergeSort (latestThen time tie)).Pairwise fun a b =>
      time b < time a ∨ time a = time b ∧ tie a b ∧ label a ≠ label b := by
  have hsorted := (Sorting.isComparison_latestThen time htie).pairwise_mergeSort (entries.map view)
  refine (hsorted.and (hentries.pairwise_label _)).imp fun ⟨hab, hne⟩ => ?_
  exact (latestThen_iff.mp hab).imp_right fun ⟨heq, htied⟩ => ⟨heq, htied, hne⟩

end Labelled

end Entries

namespace Tables

theorem set_table (t : Tables) (name : TableName) : t.set name (t.table name) = t := by
  cases name <;> rfl

end Tables

namespace Table

open Json (Codec)

variable {α : Type} [Codec α]

theorem step_list (t : Table α) (nonce : Nat) (d : Disk) :
    t.step nonce d .list = ((Site.mk t d).content, t, d) := by
  cases t <;> rfl

theorem step_get (t : Table α) (nonce : Nat) (d : Disk) (key : String) :
    t.step nonce d (.get key) = ((Site.mk t d).content.map (·.find? key), t, d) := by
  cases t <;> rfl

end Table

namespace Host

variable {h : Host} {name : TableName} {entries : Entries name.Row} {α : Type}

/-- That a host enumerates a table as some entries, in their order. -/
def Lists (h : Host) (name : TableName) (entries : Entries name.Row) : Prop :=
  (Table.Site.mk (h.tables.table name) h.disk).content = .ok entries

/-- That a host has what stands in a table of a world, in an order of its own. -/
def Holds (h : Host) (name : TableName) (w : World) : Prop :=
  ∃ entries, h.Lists name entries ∧ entries.Perm (w.tables name).entries

/-- So has one that keeps it in memory in any order, or in a file that was asked the same. -/
theorem holds_of_kept {w : World}
    (hkept : (∃ m, h.tables.table name = .memory m ∧ m.entries.Perm (w.tables name).entries) ∨
      (∃ t asks, h.tables.table name = .file t ∧
        Table.Matches asks (w.tables name) t h.disk)) : h.Holds name w := by
  rcases hkept with ⟨m, hmemory, hperm⟩ | ⟨t, asks, hfile, hmatches⟩
  · refine ⟨m.entries, ?_, hperm⟩
    rw [Lists, hmemory]
    rfl
  · obtain ⟨entries, hload, hsame, -⟩ := hmatches.read
    have hdistinct := Entries.distinct_of_ascending (FileTable.isOrderly_of_load hload).ascending
    refine ⟨entries, ?_, Entries.perm_of_find? hdistinct hmatches.distinct hsame⟩
    rw [Lists, hfile]
    exact hload

/-- Every order is that of some host with tables in memory. -/
theorem exists_lists (name : TableName) (entries : Entries name.Row) :
    ∃ h : Host, h.tables.table name = .memory ⟨entries⟩ ∧ h.Lists name entries :=
  ⟨{ tables := Tables.inMemory.set name (.memory ⟨entries⟩), disk := default, count := 0
     clock := fun _ => default, entropy := fun _ _ => [] }, by cases name <;> rfl,
    by cases name <;> rfl⟩

theorem Lists.advance (hlists : h.Lists name entries) : h.advance.Lists name entries :=
  hlists

/-- A call that leaves its table leaves everything but the count of effects. -/
theorem ask_of_step {call : TableCall name.Row} {answer : call.Reply}
    (hstep : (h.tables.table name).step h.nonce h.disk call =
      (answer, h.tables.table name, h.disk)) : h.ask name call = (answer, h.advance) := by
  have hall : h.tables.step h.nonce h.disk name call = (answer, h.tables, h.disk) := by
    rw [Tables.step, hstep]
    exact congrArg (answer, ·, h.disk) (Tables.set_table h.tables name)
  rw [Host.ask, hall]
  rfl

/-- A table in a file is enumerated by key. -/
theorem Lists.ascending (hlists : h.Lists name entries) {t : FileTable}
    (hfile : h.tables.table name = .file t) : Json.Ascending entries := by
  rw [Lists, hfile] at hlists
  exact (FileTable.isOrderly_of_load hlists).ascending

theorem Lists.ask_list (hlists : h.Lists name entries) :
    h.ask name .list = (.ok entries, h.advance) :=
  ask_of_step ((Table.step_list _ _ _).trans (congrArg (·, _, _) hlists))

theorem Lists.ask_get (hlists : h.Lists name entries) (key : String) :
    h.ask name (.get key) = (.ok (entries.find? key), h.advance) := by
  refine ask_of_step ((Table.step_get _ _ _ key).trans ?_)
  rw [hlists]
  rfl

/-- What is done with the entries. -/
theorem Lists.run_list (hlists : h.Lists name entries)
    (next : Entries name.Row → Procedure α) :
    ((Procedure.query name .list).bind next).run reply h = (next entries).run reply h.advance := by
  change ((Procedure.ofExcept (h.ask name .list).1).bind next).run reply (h.ask name .list).2 = _
  rw [hlists.ask_list]
  rfl

/-- What is done with the entry under a key. -/
theorem Lists.run_get (hlists : h.Lists name entries) (key : String)
    (next : Option (Versioned name.Row) → Procedure α) :
    ((Procedure.query name (.get key)).bind next).run reply h =
      (next (entries.find? key)).run reply h.advance := by
  change ((Procedure.ofExcept (h.ask name (.get key)).1).bind next).run reply
    (h.ask name (.get key)).2 = _
  rw [hlists.ask_get]
  rfl

end Host

end CertAuthority
