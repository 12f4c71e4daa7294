import CertAuthority.Proofs.Disk.Acceptance
import CertAuthority.Proofs.Store.File

/-!
# Tables that can be written

A table can be written if its lock, a file of its own, can be opened, and the table can then be
put in its place.  This is asked of the disk once: no call takes it away, neither for itself nor
for the calls that will come after it.  A call to such a table fails for no reason but its own.
-/

namespace CertAuthority

namespace Disk

variable {d locked later : Disk} {path : String}

/-- A lock file that was opened is there, and can be read and written. -/
theorem file_of_openOrCreate (hopen : d.openOrCreate path = .ok locked) :
    ∃ place content mode, locked.resolve path true = .ok place ∧
      locked.node? place = some (.file content mode) ∧
        isReadable mode = true ∧ isWritable mode = true := by
  have hgrows := (of_openOrCreate hopen).1
  unfold openOrCreate at hopen
  split at hopen
  · cases hopen
  · next place hresolve =>
      have hstill : locked.resolve path true = .ok place := by
        rcases hgrows.resolve path true with hsame | ⟨hmissing, -⟩
        · rw [hsame, hresolve]
        · cases hmissing.symm.trans hresolve
      split at hopen
      · next hnew =>
          cases hopen
          have hplace : place ≠ [] := ne_nil_of_node? (d := d) (by simp [hnew])
          exact ⟨place, [], defaultMode, hstill, by rw [node?_put hplace, if_pos rfl], rfl, rfl⟩
      · next content mode hfile =>
          split at hopen
          · next hmode =>
              cases hopen
              exact ⟨place, content, mode, hstill, hfile, hmode⟩
          · cases hopen
      · cases hopen

/-- It is opened again as it is, even after another file was written. -/
theorem openOrCreate_again (hopen : d.openOrCreate path = .ok locked)
    (hgrows : locked.Grows later)
    (hkept : ∀ place, later.node? place = locked.node? place ∨ ∃ content mode,
      later.node? place = some (.file content mode) ∧
        isReadable mode = true ∧ isWritable mode = true) :
    later.openOrCreate path = .ok later := by
  obtain ⟨place, content, mode, hresolve, hfile, hread, hwrite⟩ := file_of_openOrCreate hopen
  have hstill : later.resolve path true = .ok place := by
    rcases hgrows.resolve path true with hsame | ⟨hmissing, -⟩
    · rw [hsame, hresolve]
    · cases hmissing.symm.trans hresolve
  rcases hkept place with hsame | ⟨_, _, hwritten, hmode⟩
  · simp only [openOrCreate, hstill, hsame.trans hfile, hread, hwrite, and_self, if_true]
  · simp only [openOrCreate, hstill, hwritten, hmode, and_self, if_true]

/-- Opening a lock file that is no link changes nothing but what is under its own name. -/
theorem node?_of_openOrCreate (hlink : d.isLink path = false)
    (hopen : d.openOrCreate path = .ok locked) :
    ∃ place, d.Stands path place ∧ ∀ other, other ≠ place → locked.node? other = d.node? other := by
  unfold openOrCreate at hopen
  split at hopen
  · cases hopen
  · next place hresolve =>
      refine ⟨place, stands_of_resolve hlink hresolve, fun other hother => ?_⟩
      split at hopen
      · next hnew =>
          cases hopen
          have hplace : place ≠ [] := ne_nil_of_node? (d := d) (by simp [hnew])
          rw [node?_put hplace, if_neg hother]
      · split at hopen
        · cases hopen
          rfl
        · cases hopen
      · cases hopen

end Disk

namespace FileTable

open Json (Codec)
open Disk (IsPath IsName)
open AtomicWrite (Accepts)

/-- That a table can be written: its lock is no link and can be opened, and then a file can be put
in the table's place. -/
structure IsWritable (t : FileTable) (nonce : Nat) (d : Disk) : Prop where
  plain : d.isLink t.lockPath = false
  saved : ∃ locked, d.openOrCreate t.lockPath = .ok locked ∧
    (AtomicWrite.write none nonce locked t.path [] mode).1 = .ok ()

namespace IsWritable

variable {t : FileTable} {nonce : Nat} {d locked later : Disk}

/-- Whatever is to be put in the table's place is accepted there. -/
theorem accepts (hwritable : t.IsWritable nonce d)
    (hopen : d.openOrCreate t.lockPath = .ok locked) :
    ∃ name directory spare, Accepts locked t.path nonce name directory spare := by
  obtain ⟨-, found, hfound, hwrite⟩ := hwritable
  cases hopen.symm.trans hfound
  exact AtomicWrite.accepts_of_write hwrite

/-- The lock stands beside the table: who takes it reads the table as before. -/
theorem read_locked (hwritable : t.IsWritable nonce d) (hpath : IsPath t.path)
    (hopen : d.openOrCreate t.lockPath = .ok locked) : locked.read t.path = d.read t.path := by
  obtain ⟨name, directory, spare, haccepts⟩ := hwritable.accepts hopen
  have hgrows := (Disk.of_openOrCreate hopen).1
  have hstands := Disk.stands_of_way hpath haccepts.ends haccepts.isName haccepts.way
    haccepts.isDirectory haccepts.plain
  obtain ⟨place, hplace, hkept⟩ := Disk.node?_of_openOrCreate hwritable.plain hopen
  have hbeside : directory ++ [name] ≠ place := by
    rintro rfl
    have hends := haccepts.ends.append (by decide : '/' ∉ ".lock".toList)
    have hlast := (hplace.reaches.last_name (Path.append_ne (by decide))
      (Path.append_ne (by decide)) ((congrArg List.getLast? hends.names).trans List.getLast?_concat)).2
    rw [List.getLast?_concat] at hlast
    have hsize := congrArg String.utf8ByteSize (Option.some.inj hlast)
    rw [String.utf8ByteSize_append, show ".lock".utf8ByteSize = 5 from rfl] at hsize
    omega
  rw [hstands.read, (hgrows.stands_iff.mp hstands).read, hkept _ hbeside]

/-- A table can be written after its lock was taken. -/
theorem of_locked (hwritable : t.IsWritable nonce d)
    (hopen : d.openOrCreate t.lockPath = .ok locked) : t.IsWritable nonce locked := by
  have hgrows := (Disk.of_openOrCreate hopen).1
  obtain ⟨hplain, found, hfound, hwrite⟩ := hwritable
  cases hopen.symm.trans hfound
  refine ⟨by rwa [hgrows.isLink_eq], locked, ?_, hwrite⟩
  exact Disk.openOrCreate_again hopen (.refl _) fun _ => .inl rfl

/-- It can be written after it was written. -/
theorem of_filed (hwritable : t.IsWritable nonce d) (hpath : IsPath t.path)
    (hopen : d.openOrCreate t.lockPath = .ok locked) {place : Place} {content : Bytes}
    (hstands : locked.Stands t.path place) (hfiled : locked.Filed later place content mode) :
    t.IsWritable nonce later := by
  have hgrows := (Disk.of_openOrCreate hopen).1
  obtain ⟨name, directory, spare, haccepts⟩ := hwritable.accepts hopen
  have hplace : place = directory ++ [name] := by
    have hway := Disk.stands_of_way hpath haccepts.ends haccepts.isName haccepts.way
      haccepts.isDirectory haccepts.plain
    exact Except.ok.inj (hstands.resolve.symm.trans hway.resolve)
  subst hplace
  refine ⟨?_, later, ?_, (haccepts.of_filed hpath hfiled).write⟩
  · rw [hfiled.grows.isLink_eq, hgrows.isLink_eq, hwritable.plain]
  · refine Disk.openOrCreate_again hopen hfiled.grows fun other => ?_
    rw [hfiled.nodes]
    split
    · exact .inr ⟨_, _, rfl, by decide⟩
    · exact .inl rfl

end IsWritable

variable {α β : Type} [Codec α] {t : FileTable} {nonce : Nat} {d : Disk} {before : Entries α}

/-- A table that can be read and written has a path that can be looked up. -/
theorem IsWritable.isPath (hwritable : t.IsWritable nonce d) (hload : t.load d = .ok before) :
    IsPath t.path := by
  obtain ⟨locked, hopen, -⟩ := hwritable.saved
  obtain ⟨name, directory, spare, haccepts⟩ := hwritable.accepts hopen
  exact isPath_of_load haccepts.ends.ne_empty hload

/-- A change to a table that can be written fails only if the change itself does, and then only
the lock was taken.  Otherwise the table is put in its place as it was changed. -/
theorem IsWritable.mutate (hwritable : t.IsWritable nonce d) (hload : t.load d = .ok before)
    (change : Entries α → Except CaError (β × Entries α)) :
    ∃ locked, d.openOrCreate t.lockPath = .ok locked ∧
      ((∃ e, change before = .error e ∧ t.mutate nonce d change = (.error e, locked)) ∨
        ∃ answer after later place, change before = .ok (answer, after) ∧
          t.mutate nonce d change = (.ok answer, later) ∧ locked.Stands t.path place ∧
            locked.Filed later place (Snapshot.encode after) mode) := by
  obtain ⟨locked, hopen, -⟩ := hwritable.saved
  obtain ⟨name, directory, spare, haccepts⟩ := hwritable.accepts hopen
  have hpath := hwritable.isPath hload
  have hlocked : t.load locked = .ok before := by
    rw [← hload, load, load, hwritable.read_locked hpath hopen]
  refine ⟨locked, hopen, ?_⟩
  cases hchange : change before with
  | error e => exact .inl ⟨e, rfl, by simp only [FileTable.mutate, hopen, hlocked, hchange]⟩
  | ok changed =>
      obtain ⟨answer, after⟩ := changed
      have hwrite : (AtomicWrite.write none nonce locked t.path (Snapshot.encode after) mode).1 =
          .ok () := haccepts.write
      obtain ⟨place, hstands, hfiled⟩ := AtomicWrite.filed_of_write hpath hwrite
      refine .inr ⟨answer, after, _, place, rfl, ?_, hstands, hfiled⟩
      have hsave : t.save nonce locked after =
          (.ok (), (AtomicWrite.write none nonce locked t.path (Snapshot.encode after) mode).2) :=
        Prod.ext hwrite rfl
      simp only [FileTable.mutate, hopen, hlocked, hchange, hsave]

end FileTable

end CertAuthority
