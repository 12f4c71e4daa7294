import CertAuthority.Proofs.Disk.Acceptance
import CertAuthority.Store.File

/-!
# What a call leaves of a table in a file

A call that writes takes the lock, which may leave an empty file where nothing was.  Then it either
fails, and all else is as it was, or the table was read, was changed, and stands in its file as it
was written.
-/

namespace CertAuthority

namespace Disk

/-- That a place holds what it held, or an empty file where nothing was. -/
def Kept (d later : Disk) (place : Place) : Prop :=
  later.node? place = d.node? place ∨
    d.node? place = none ∧ later.node? place = some (.file [] defaultMode)

variable {d later : Disk}

theorem Kept.refl (d : Disk) (place : Place) : d.Kept d place :=
  .inl rfl

/-- A lock file is there once it has been opened. -/
theorem of_openOrCreate {path : String} (hopen : d.openOrCreate path = .ok later) :
    d.Grows later ∧ ∀ place, d.Kept later place := by
  unfold openOrCreate at hopen
  split at hopen
  · cases hopen
  · split at hopen
    · next place _ _ hnew =>
        cases hopen
        refine ⟨.put (.inl hnew), fun other => ?_⟩
        have hplace : place ≠ [] := ne_nil_of_node? (d := d) (by simp [hnew])
        rw [Kept, node?_put hplace]
        split
        · next heq =>
            rw [heq]
            exact .inr ⟨hnew, rfl⟩
        · exact .inl rfl
    · split at hopen
      · cases hopen
        exact ⟨.refl _, .refl _⟩
      · cases hopen
    · cases hopen

end Disk

namespace FileTable

open Json (Codec)
open Disk (IsPath IsName)

variable {α β : Type} [Codec α] {t : FileTable} {d later : Disk} {place : Place}

/-- What is read of a table whose path stands for a place. -/
theorem load_of_kept (hstands : d.Stands t.path place) (hgrows : d.Grows later)
    (hkept : d.Kept later place) : t.load (α := α) later = t.load d := by
  have hlater := (hgrows.stands_iff.mpr hstands).read
  have hread := hstands.read
  rcases hkept with hsame | ⟨hnone, hempty⟩
  · rw [load, load, hlater, hread, hsame]
  · rw [hempty] at hlater
    rw [hnone] at hread
    rw [load, load, hlater, hread]
    rfl

/-- What is read of a table after it was written. -/
theorem load_of_file (hstands : d.Stands t.path place) {content : Bytes} {mode : Nat}
    (hfile : d.node? place = some (.file content mode)) (hmode : Disk.isReadable mode = true) :
    t.load (α := α) d = match Snapshot.decode content with
      | some entries => .ok entries
      | none => .error (.storage ("Corrupt store file " ++ t.path)) := by
  have hread := hstands.read
  rw [hfile] at hread
  simp only [hmode, if_true] at hread
  cases hdecode : (Snapshot.decode content : Option (Entries α)) <;>
    simp only [load, hread, hdecode]

/-- A table that cannot be read says so with an error of the storage. -/
theorem storage_of_load {e : CaError} (hload : t.load (α := α) d = .error e) :
    ∃ message, e = .storage message := by
  unfold load at hload
  split at hload
  · cases hload
  · cases hload
    exact ⟨_, rfl⟩
  · split at hload
    · cases hload
    · cases hload
      exact ⟨_, rfl⟩

/-- A table that can be read has a path that can be looked up. -/
theorem isPath_of_load (hne : t.path ≠ "") {entries : Entries α}
    (hload : t.load d = .ok entries) : IsPath t.path := by
  refine Disk.isPath_of_notFound (d := d) true hne fun e hresolve => ?_
  have hread : d.read t.path = .error e := by simp [Disk.read, Disk.stat, hresolve]
  rw [load, hread] at hload
  cases e <;> first | rfl | cases hload

/-- What a call that writes left, if it failed. -/
structure Refused (d later : Disk) : Prop where
  grows : d.Grows later
  kept : ∀ place, d.Kept later place

/-- Whatever is read after a call that was refused was read before. -/
theorem load_of_refused {entries : Entries α} (hrefused : Refused d later)
    (hload : t.load later = .ok entries) :
    t.load d = .ok entries := by
  rcases hrefused.grows.resolve t.path true with hsame | ⟨-, hnot⟩
  · cases hresolve : d.resolve t.path true with
    | error e =>
        have hread : later.read t.path = d.read t.path := by
          simp only [Disk.read, Disk.stat, hsame, hresolve]
        rwa [load, ← hread]
    | ok place =>
        rcases hrefused.kept place with hnode | ⟨hnone, hempty⟩
        · have hread : later.read t.path = d.read t.path := by
            simp only [Disk.read, Disk.stat, hsame, hresolve, hnode]
          rwa [load, ← hread]
        · have hread : later.read t.path = .ok [] := by
            simp only [Disk.read, Disk.stat, hsame, hresolve, hempty]
            rfl
          have hbefore : d.read t.path = .error .notFound := by
            simp only [Disk.read, Disk.stat, hresolve, hnone]
          rw [load, hread] at hload
          rw [load, hbefore]
          exact hload
  · have hread : later.read t.path = .error .notDirectory := by
      simp only [Disk.read, Disk.stat, hnot]
    rw [load, hread] at hload
    cases hload

/-- What a call that writes left, if it put other entries in the place of those that it read. -/
structure Changed (t : FileTable) (d later : Disk) (place : Place) (before after : Entries α) :
    Prop where
  grows : d.Grows later
  stands : d.Stands t.path place
  load : t.load d = .ok before
  file : later.node? place = some (.file (Snapshot.encode after) mode)
  kept : ∀ other, other ≠ place → d.Kept later other

/-- A change either fails, and no table is changed, or is written after the table was read. -/
theorem mutate_cases (t : FileTable) (nonce : Nat) (d : Disk)
    (change : Entries α → Except CaError (β × Entries α)) :
    (∃ e, (t.mutate nonce d change).1 = .error e ∧ Refused d (t.mutate nonce d change).2 ∧
        ((∃ message, e = .storage message) ∨
          ∃ before, t.load d = .ok before ∧ change before = .error e)) ∨
      ∃ answer before after place, (t.mutate nonce d change).1 = .ok answer ∧
        change before = .ok (answer, after) ∧
          Changed t d (t.mutate nonce d change).2 place before after := by
  unfold mutate
  split
  · exact .inl ⟨_, rfl, ⟨.refl d, .refl d⟩, .inl ⟨_, rfl⟩⟩
  · next locked hlock =>
      obtain ⟨hgrows, hkept⟩ := Disk.of_openOrCreate hlock
      split
      · next hload => exact .inl ⟨_, rfl, ⟨hgrows, hkept⟩, .inl (storage_of_load hload)⟩
      · next before hload =>
          have hbefore := load_of_refused ⟨hgrows, hkept⟩ hload
          split
          · next hchange =>
              exact .inl ⟨_, rfl, ⟨hgrows, hkept⟩, .inr ⟨before, hbefore, hchange⟩⟩
          · next answer after hchange =>
              have hsave : t.save nonce locked after =
                  ((t.save nonce locked after).1, (t.save nonce locked after).2) := rfl
              rcases AtomicWrite.write_cases nonce locked t.path (Snapshot.encode after)
                  mode with ⟨message, hfailed, hsame⟩ | ⟨hdone, -⟩
              · rw [← save] at hfailed hsame
                rw [hsave, hfailed]
                refine .inl ⟨_, rfl, ⟨hgrows.trans hsame.grows, fun other => ?_⟩, .inl ⟨_, rfl⟩⟩
                rw [Disk.Kept, hsame.nodes]
                exact hkept other
              · obtain ⟨_, _, _, haccepts⟩ := AtomicWrite.accepts_of_write hdone
                have hpath := isPath_of_load haccepts.ends.ne_empty hload
                obtain ⟨place, hstands, hfiled⟩ := AtomicWrite.filed_of_write hpath hdone
                rw [← save] at hdone hfiled
                rw [hsave, hdone]
                have hold := hgrows.stands_iff.mp hstands
                refine .inr ⟨answer, before, after, place, rfl, hchange,
                  hgrows.trans hfiled.grows, hold, hbefore, ?_, fun other hother => ?_⟩
                · rw [hfiled.nodes, if_pos rfl]
                · rw [Disk.Kept, hfiled.nodes, if_neg hother]
                  exact hkept other

end FileTable

end CertAuthority
