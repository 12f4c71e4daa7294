import CertAuthority.Host
import CertAuthority.Proofs.Store.Directory
import CertAuthority.Proofs.Store.Snapshot

/-!
# The requests in their file

The table of requests is read back after a write if and only if no agent's value in it is nested too
deep.  A request that was read is not; so an update brings nothing that cannot be read, and what
stands in the way of reading is always a request that was entered.
-/

namespace CertAuthority

namespace CertificateRequest

/-- What is written of a request as text, and not nested too deep is read again. -/
structure IsStorable (r : CertificateRequest) : Prop where
  sound : r.IsSound
  integral : r.IsIntegral

/-- A request that is read again, whatever else is in the table. -/
structure IsReadable (r : CertificateRequest) : Prop extends r.IsStorable where
  depth : r.agentInfo.depth ≤ Ledger.agentLevels

end CertificateRequest

namespace Ledger

section Entries

variable {entries : Entries CertificateRequest} {key : String} {r : CertificateRequest}

/-- That all entries of a table can be written and read. -/
structure IsReadable (entries : Entries CertificateRequest) : Prop where
  sound : IsSound entries
  integral : IsIntegral entries
  shallow : IsShallow entries

theorem IsReadable.of_mem (hreadable : IsReadable entries)
    {entry : String × Versioned CertificateRequest} (hmem : entry ∈ entries) : entry.2.value.IsReadable :=
  ⟨⟨(hreadable.sound.sound entry hmem).value, hreadable.integral entry hmem⟩,
    hreadable.shallow entry hmem⟩

theorem IsReadable.of_find? (hreadable : IsReadable entries) {entry : Versioned CertificateRequest}
    (hfind : entries.find? key = some entry) : entry.value.IsReadable := by
  obtain ⟨found, hfound, rfl⟩ := Option.map_eq_some_iff.mp hfind
  exact hreadable.of_mem (List.mem_of_find?_eq_some hfound)

theorem sound_fresh (hr : r.IsSound) : (Versioned.fresh r).IsSound :=
  ⟨hr, show 1 < Nat.pow 2 64 by decide⟩

theorem sound_overwrite (held : Versioned CertificateRequest) (hr : r.IsSound) :
    (held.overwrite r).IsSound :=
  ⟨hr, Nat.mod_lt _ (by decide)⟩

theorem isSound_insert (hsound : IsSound entries) (hr : r.IsSound) (key : String) :
    IsSound (Snapshot.insert entries key r) := by
  refine ⟨hsound.ascending.insertField key _, fun entry hentry => ?_⟩
  rcases Json.mem_insertField hentry with rfl | hold
  · exact sound_fresh hr
  · exact hsound.sound entry hold

theorem isIntegral_insert (hintegral : IsIntegral entries) (hr : r.IsIntegral) (key : String) :
    IsIntegral (Snapshot.insert entries key r) := by
  intro entry hentry
  rcases Json.mem_insertField hentry with rfl | hold
  · exact hr
  · exact hintegral entry hold

theorem isShallow_insert_iff (hshallow : IsShallow entries) (key : String) (r : CertificateRequest) :
    IsShallow (Snapshot.insert entries key r) ↔ r.agentInfo.depth ≤ agentLevels := by
  constructor
  · intro hall
    exact hall _ (Json.mem_insertField_self key (.fresh r) entries)
  · intro hr entry hentry
    rcases Json.mem_insertField hentry with rfl | hold
    · exact hr
    · exact hshallow entry hold

theorem IsReadable.replace (hreadable : IsReadable entries) (hr : r.IsReadable) (key : String)
    (held : Versioned CertificateRequest) : IsReadable (entries.replace key (held.overwrite r)) where
  sound := by
    refine ⟨Entries.ascending_replace hreadable.sound.ascending key _, fun entry hentry => ?_⟩
    rcases Entries.mem_replace hentry with heq | hold
    · rw [heq]
      exact sound_overwrite held hr.sound
    · exact hreadable.sound.sound entry hold
  integral := by
    intro entry hentry
    rcases Entries.mem_replace hentry with heq | hold
    · rw [heq]
      exact hr.integral
    · exact hreadable.integral entry hold
  shallow := by
    intro entry hentry
    rcases Entries.mem_replace hentry with heq | hold
    · rw [heq]
      exact hr.depth
    · exact hreadable.shallow entry hold

theorem IsReadable.erase (hreadable : IsReadable entries) (key : String) :
    IsReadable (entries.erase key) where
  sound := ⟨Entries.ascending_erase hreadable.sound.ascending key,
    fun entry hentry => hreadable.sound.sound entry (List.mem_filter.mp hentry).1⟩
  integral := fun entry hentry => hreadable.integral entry (List.mem_filter.mp hentry).1
  shallow := fun entry hentry => hreadable.shallow entry (List.mem_filter.mp hentry).1

end Entries

section File

variable {directory : String} {d later : Disk} {entries : Entries CertificateRequest}

/-- The file of the requests in a directory. -/
def file (directory : String) : FileTable :=
  Tables.fileOf directory .requests

/-- What is read of the requests. -/
def held (directory : String) (d : Disk) : Except CaError (Entries CertificateRequest) :=
  (file directory).load d

/-- The error of a table that cannot be read. -/
def corrupt (directory : String) : CaError :=
  .storage ("Corrupt store file " ++ (file directory).path)

/-- A table that is read is sound, and nothing in it is nested too deep. -/
theorem of_load (hload : held directory d = .ok entries) :
    IsSound entries ∧ IsShallow entries := by
  unfold held FileTable.load at hload
  split at hload
  · cases hload
    exact of_decode (show Snapshot.decode [] = some [] from rfl)
  · cases hload
  · split at hload
    · next hdecode =>
        cases hload
        exact of_decode hdecode
    · cases hload

/-- What is read after the table was written. -/
theorem load_of_changed {place : Place} {before after : Entries CertificateRequest}
    (hchanged : FileTable.Changed (file directory) d later place before after)
    (hsound : IsSound after) (hintegral : IsIntegral after) :
    held directory later =
      if IsShallow after then .ok after else .error (corrupt directory) := by
  have hstands := hchanged.grows.stands_iff.mpr hchanged.stands
  rw [held, FileTable.load_of_file hstands hchanged.file (by decide), decode_encode hsound hintegral]
  by_cases hshallow : IsShallow after
  · simp only [hshallow, if_true]
  · simp only [hshallow, if_false]
    rfl

/-- That the requests stand in their file, and hold no numbers but integers. -/
structure Stands (directory : String) (d : Disk) : Prop where
  place : ∃ place, d.Stands (file directory).path place
  integral : ∀ entries : Entries CertificateRequest,
    held directory d = .ok entries → IsIntegral entries

theorem Stands.readable (hstands : Stands directory d) (hload : held directory d = .ok entries) :
    IsReadable entries :=
  ⟨(of_load hload).1, hstands.integral entries hload, (of_load hload).2⟩

/-- Where the requests are read as before, they stand as before. -/
theorem Stands.of_same (hstands : Stands directory d) (hgrows : d.Grows later)
    (hsame : held directory later = held directory d) :
    Stands directory later := by
  obtain ⟨place, hplace⟩ := hstands.place
  refine ⟨⟨place, hgrows.stands_iff.mpr hplace⟩, fun entries hload => ?_⟩
  rw [hsame] at hload
  exact hstands.integral entries hload

/-- Where integers only were written, the requests stand as before. -/
theorem Stands.of_load {after : Entries CertificateRequest} (hstands : Stands directory d)
    (hgrows : d.Grows later) (hintegral : IsIntegral after)
    (hload : held directory later = .ok after ∨
      ∃ e, held directory later = .error e) :
    Stands directory later := by
  obtain ⟨place, hplace⟩ := hstands.place
  refine ⟨⟨place, hgrows.stands_iff.mpr hplace⟩, fun entries hentries => ?_⟩
  rcases hload with hload | ⟨e, hload⟩
  · cases hload.symm.trans hentries
    exact hintegral
  · cases hload.symm.trans hentries

theorem isName_file : Disk.IsName (Tables.fileName .requests) :=
  Tables.isName_fileName .requests

theorem ends_file (directory : String) :
    Path.Ends (file directory).path (Tables.fileName .requests) :=
  Tables.ends_fileOf directory .requests

/-- What a change that failed leaves of the requests. -/
theorem load_of_refused (hstands : Stands directory d) (hrefused : FileTable.Refused d later) :
    held directory later = held directory d := by
  obtain ⟨place, hplace⟩ := hstands.place
  exact FileTable.load_of_kept hplace hrefused.grows (hrefused.kept place)

/-- What a call to another table leaves of the requests. -/
theorem load_step_of_ne (hstands : Stands directory d) {name : TableName} (hname : name ≠ .requests)
    (nonce : Nat) (call : TableCall name.Row) :
    held directory
        ((Tables.fileOf directory name).step nonce d call).2 = held directory d := by
  obtain ⟨place, hplace⟩ := hstands.place
  obtain ⟨hgrows, hkept⟩ := FileTable.step_kept (Tables.isName_fileName name)
    (Tables.ends_fileOf directory name) nonce d call
  refine FileTable.load_of_kept hplace hgrows (hkept place ?_)
  rw [hplace.getLast?_eq isName_file (ends_file directory)]
  exact fun heq => hname (Tables.fileName_injective (Option.some.inj heq)).symm

/-- A request is refused, and the requests are read as before, or it is entered: then they are read
with it, or not at all. -/
theorem create_cases (hstands : Stands directory d) (nonce : Nat) (key : String)
    {r : CertificateRequest} (hr : r.IsStorable) :
    (∃ e, ((file directory).step nonce d (.create key r)).1 = .error e ∧
        held directory
          ((file directory).step nonce d (.create key r)).2 = held directory d) ∨
      ((file directory).step nonce d (.create key r)).1 = .ok Versioned.firstRevision ∧
        ∃ before, held directory d = .ok before ∧ before.find? key = none ∧
          held directory ((file directory).step nonce d (.create key r)).2 =
            if r.agentInfo.depth ≤ agentLevels then .ok (Snapshot.insert before key r)
            else .error (corrupt directory) := by
  rcases FileTable.mutate_cases (file directory) nonce d (FileTable.create key r)
    with ⟨e, hfailed, hrefused, -⟩ | ⟨answer, before, after, place, hdone, hchange, hchanged⟩
  · exact .inl ⟨e, hfailed, load_of_refused hstands hrefused⟩
  · unfold FileTable.create at hchange
    split at hchange
    · cases hchange
    · next hnew =>
        cases hchange
        have hbefore := hstands.readable hchanged.load
        refine .inr ⟨hdone, before, hchanged.load, hnew, ?_⟩
        have hload := load_of_changed hchanged (isSound_insert hbefore.sound hr.sound key)
          (isIntegral_insert hbefore.integral hr.integral key)
        simp only [isShallow_insert_iff hbefore.shallow key r] at hload
        exact hload

/-- What another change leaves: the requests are read as before, or as they were changed. -/
theorem load_of_mutate {β : Type} (hstands : Stands directory d) (nonce : Nat)
    {change : Entries CertificateRequest → Except CaError (β × Entries CertificateRequest)}
    (hchange : ∀ before answer after, IsReadable before → change before = .ok (answer, after) →
      IsReadable after) :
    held directory ((file directory).mutate nonce d change).2 =
        held directory d ∨
      ∃ before after, held directory d = .ok before ∧ IsReadable after ∧
        held directory ((file directory).mutate nonce d change).2 = .ok after := by
  rcases FileTable.mutate_cases (file directory) nonce d change
    with ⟨e, -, hrefused, -⟩ | ⟨answer, before, after, place, -, hdone, hchanged⟩
  · exact .inl (load_of_refused hstands hrefused)
  · have hafter := hchange before answer after (hstands.readable hchanged.load) hdone
    have hload := load_of_changed hchanged hafter.sound hafter.integral
    rw [if_pos hafter.shallow] at hload
    exact .inr ⟨before, after, hchanged.load, hafter, hload⟩

theorem load_of_update (hstands : Stands directory d) (nonce : Nat) (key : String)
    {r : CertificateRequest} (hr : r.IsReadable) (revision : Nat) :
    held directory
          ((file directory).step nonce d (.update key r revision)).2 = held directory d ∨
      ∃ before after, held directory d = .ok before ∧ IsReadable after ∧
        held directory ((file directory).step nonce d (.update key r revision)).2 =
          .ok after := by
  refine load_of_mutate hstands nonce fun before answer after hbefore hchange => ?_
  unfold FileTable.update at hchange
  split at hchange
  · cases hchange
  · next held hheld =>
      split at hchange
      · cases hchange
        exact hbefore.replace hr key held
      · cases hchange

theorem load_of_delete (hstands : Stands directory d) (nonce : Nat) (key : String) (revision : Nat) :
    held directory ((file directory).step nonce d
          (TableCall.delete (α := CertificateRequest) key revision)).2 = held directory d ∨
      ∃ before after, held directory d = .ok before ∧ IsReadable after ∧
        held directory ((file directory).step nonce d
          (TableCall.delete (α := CertificateRequest) key revision)).2 = .ok after := by
  refine load_of_mutate hstands nonce fun before answer after hbefore hchange => ?_
  unfold FileTable.delete at hchange
  split at hchange
  · cases hchange
  · split at hchange
    · cases hchange
      exact hbefore.erase key
    · cases hchange

end File

end Ledger

end CertAuthority
