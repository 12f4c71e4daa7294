import CertAuthority.Proofs.Store.Site
import CertAuthority.Proofs.Store.Writable

/-!
# Tables that cannot be told apart

A table in memory and a table in a file are asked the same, one after the other, and now and then
the one in the file is closed and opened again.  As long as the values are read as they were
written, and the file can be written at all, nobody can tell from what they answer which is which.
-/

namespace CertAuthority

open Json (Codec)

namespace TableCall

variable {α : Type}

/-- That a call is refused over what is held under its key: it makes what is there, or names a
revision that is not there. -/
def Clashes : TableCall α → Option (Versioned α) → Prop
  | .create _ _, held => held ≠ none
  | .update _ _ revision, held => ∀ entry, held = some entry → entry.revision ≠ revision
  | .delete _ revision, held => ∀ entry, held = some entry → entry.revision ≠ revision
  | _, _ => False

/-- What a call that is accepted leaves of what is held under its key. -/
def left : TableCall α → Option (Versioned α) → Option (Versioned α)
  | .create _ value, _ => some (.fresh value)
  | .update _ value _, held => held.map (·.overwrite value)
  | .delete _ _, _ => none
  | _, held => held

end TableCall

namespace MemoryTable

variable {α : Type}

/-- A call that clashes with what is held is refused with a conflict, and any other is accepted and
changes what is held under its key as it says. -/
theorem step_cases (m : MemoryTable α) (call : TableCall α) :
    (call.Clashes (m.find? call.key) ∧ m.step call = (.error (.conflict call.key), m)) ∨
      (¬ call.Clashes (m.find? call.key) ∧ (∃ told, (m.step call).1 = .ok told) ∧
        (m.step call).2.find? call.key = call.left (m.find? call.key)) := by
  cases call with
  | get key => exact .inr ⟨id, ⟨_, rfl⟩, rfl⟩
  | list => exact .inr ⟨id, ⟨_, rfl⟩, rfl⟩
  | create key value =>
      rcases m.create_cases key value with ⟨held, hheld, hstep⟩ | ⟨hnone, hreply, hafter⟩
      · exact .inl ⟨by simp [TableCall.Clashes, TableCall.key, hheld], hstep⟩
      · exact .inr ⟨fun hclash => hclash hnone, ⟨_, hreply⟩, (hafter key).trans (if_pos rfl)⟩
  | update key value revision =>
      rcases m.update_cases key value revision with
        ⟨hstale, hstep⟩ | ⟨held, hheld, rfl, hreply, hafter⟩
      · exact .inl ⟨hstale, hstep⟩
      · refine .inr ⟨fun hclash => hclash held hheld rfl, ⟨_, hreply⟩, ?_⟩
        rw [TableCall.left, TableCall.key, hheld]
        exact (hafter key).trans (if_pos rfl)
  | delete key revision =>
      rcases m.delete_cases key revision with
        ⟨hstale, hstep⟩ | ⟨held, hheld, rfl, hreply, hafter⟩
      · exact .inl ⟨hstale, hstep⟩
      · exact .inr ⟨fun hclash => hclash held hheld rfl, ⟨_, hreply⟩,
          (hafter key).trans (if_pos rfl)⟩

end MemoryTable

namespace FileTable

variable {α : Type} [Codec α] {t : FileTable} {nonce : Nat} {d : Disk} {before : Entries α}

/-- What a call leaves of a table that can be written: a call that is refused leaves its bytes,
and one that is accepted is read as it was changed.  The table can be written as before. -/
theorem IsWritable.step (hwritable : t.IsWritable nonce d) (hload : t.load d = .ok before)
    (hbefore : ∀ entry ∈ before, Snapshot.IsFaithful entry.2.value) {call : TableCall α}
    (hcall : ∀ v ∈ call.value?, Snapshot.IsFaithful v) :
    d.Grows (t.step nonce d call).2 ∧
      (∀ other, t.IsWritable other d → t.IsWritable other (t.step nonce d call).2) ∧
        ((∃ e, call.change before = .error e ∧ (t.step nonce d call).1 = .error e ∧
            (t.step nonce d call).2.read t.path = d.read t.path) ∨
          ∃ answer after, call.Accepts before answer after ∧ (t.step nonce d call).1 = .ok answer ∧
            t.load (t.step nonce d call).2 = .ok after) := by
  rcases step_eq t nonce d call with hstep | ⟨answer, hstep, hchange⟩
  · rw [hstep]
    obtain ⟨locked, hopen, hlocked⟩ := hwritable.mutate hload call.change
    have hgrows := (Disk.of_openOrCreate hopen).1
    rcases hlocked with
      ⟨e, hchange, hdone⟩ | ⟨answer, after, later, place, hchange, hdone, hstands, hfiled⟩
    · rw [hdone]
      refine ⟨hgrows, fun other hother => hother.of_locked hopen, .inl ⟨e, hchange, rfl, ?_⟩⟩
      exact hwritable.read_locked (hwritable.isPath hload) hopen
    · have haccepts := TableCall.change_eq_ok_iff.mp hchange
      rw [hdone]
      refine ⟨hgrows.trans hfiled.grows,
        fun other hother => hother.of_filed (hwritable.isPath hload) hopen hstands hfiled,
        .inr ⟨answer, after, haccepts, rfl, ?_⟩⟩
      have hfile : later.node? place = some (.file (Snapshot.encode after) mode) := by
        rw [hfiled.nodes, if_pos rfl]
      rw [load_of_file (hfiled.grows.stands_iff.mpr hstands) hfile (by decide),
        Snapshot.decode_encode (haccepts.isOrderly (isOrderly_of_load hload)),
        Snapshot.retoldEntries_of_faithful (haccepts.forall_value hcall hbefore)]
  · rw [hstep]
    exact ⟨.refl d, fun _ => id, .inr ⟨answer before, before,
      TableCall.change_eq_ok_iff.mp (hchange before), congrArg (Except.map answer) hload, hload⟩⟩

end FileTable

namespace Table

variable {α : Type} [Codec α]

/-- What comes to a table: it is asked, or closed and opened again. -/
inductive Visit (α : Type) where
  | ask (a : Ask α)
  | reopen

/-- What a table is asked in its visits. -/
def Visit.asks (past : List (Visit α)) : List (Ask α) :=
  past.filterMap fun
    | .ask a => some a
    | .reopen => none

/-- That a call can be made to a table on a disk: the table can be written, and the value that the
call writes is told by its text. -/
structure Ask.IsFit (a : Ask α) (t : FileTable) (d : Disk) : Prop where
  isWritable : t.IsWritable a.nonce d
  isFaithful : ∀ v ∈ a.call.value?, Snapshot.IsFaithful v

end Table

open Table (Visit)

/-- What is left of a table in memory; there is nothing to close. -/
def MemoryTable.after {α : Type} (m : MemoryTable α) (past : List (Visit α)) : MemoryTable α :=
  past.foldl (fun
    | m, .ask a => (m.step a.call).2
    | m, .reopen => m) m

/-- What is left of the disk that a table is on. -/
def FileTable.after {α : Type} [Codec α] (t : FileTable) (d : Disk) (past : List (Visit α)) :
    Disk :=
  past.foldl (fun
    | d, .ask a => (t.step a.nonce d a.call).2
    | d, .reopen => (FileTable.openAt α t.path d).2) d

namespace Table

variable {α : Type} [Codec α]

/-- That a table in memory holds what a table in a file is read as, and that the calls that may
come can be made to the latter. -/
structure Matches (asks : List (Ask α)) (m : MemoryTable α) (t : FileTable) (d : Disk) : Prop where
  distinct : m.entries.Distinct
  hasDirectory : t.HasDirectory d
  isFit : ∀ a ∈ asks, a.IsFit t d
  read : ∃ entries, t.load d = .ok entries ∧ (∀ key, entries.find? key = m.find? key) ∧
    ∀ entry ∈ entries, Snapshot.IsFaithful entry.2.value

namespace Matches

variable {asks : List (Ask α)} {m : MemoryTable α} {t : FileTable} {d : Disk} {a : Ask α}

/-- Both refuse a call and stay as they are, or both make the same of it. -/
theorem step_cases (hmatches : Matches asks m t d) (hask : a ∈ asks) :
    (∃ e before, a.call.change before = .error e ∧ m.step a.call = (.error e, m) ∧
        (t.step a.nonce d a.call).1 = .error e ∧
          (t.step a.nonce d a.call).2.read t.path = d.read t.path) ∨
      ∃ answer told before after, a.call.Accepts before answer after ∧ a.call.Alike answer told ∧
        (m.step a.call).1 = .ok told ∧ (t.step a.nonce d a.call).1 = .ok answer ∧
          t.load d = .ok before ∧ t.load (t.step a.nonce d a.call).2 = .ok after ∧
            ∀ key, after.find? key = (m.step a.call).2.find? key := by
  obtain ⟨before, hload, hsame, hfaithful⟩ := hmatches.read
  obtain ⟨hwritable, hcall⟩ := hmatches.isFit a hask
  have hdistinct := Entries.distinct_of_ascending (FileTable.isOrderly_of_load hload).ascending
  have hperm := Entries.perm_of_find? hdistinct hmatches.distinct hsame
  obtain ⟨-, -, hfile⟩ := hwritable.step hload hfaithful hcall
  rcases m.step_change hsame hperm a.call with
    ⟨e, hchange, hmemory⟩ | ⟨answer, after, told, haccepts, hmemory, halike, hafter⟩
  · rcases hfile with ⟨_, hfound, hreply, hread⟩ | ⟨_, _, haccepts, -⟩
    · cases hchange.symm.trans hfound
      exact .inl ⟨e, before, hchange, hmemory, hreply, hread⟩
    · cases hchange.symm.trans (TableCall.change_eq_ok_iff.mpr haccepts)
  · rcases hfile with ⟨_, hfound, -⟩ | ⟨_, _, hfound, hreply, hlater⟩
    · cases hfound.symm.trans (TableCall.change_eq_ok_iff.mpr haccepts)
    · cases (TableCall.change_eq_ok_iff.mpr hfound).symm.trans
        (TableCall.change_eq_ok_iff.mpr haccepts)
      exact .inr ⟨answer, told, before, after, haccepts, halike, hmemory, hreply, hload, hlater,
        hafter⟩

/-- A table that is closed can be opened again, and is read as before. -/
theorem reopened (hmatches : Matches asks m t d) :
    FileTable.openAt α t.path d = (.ok t, d) := by
  obtain ⟨entries, hload, -⟩ := hmatches.read
  rw [FileTable.openAt_of_hasDirectory hmatches.hasDirectory, hload]
  rfl

/-- What is asked of both leaves them matching. -/
theorem act (hmatches : Matches asks m t d) (hask : a ∈ asks) :
    Matches asks (m.step a.call).2 t (t.step a.nonce d a.call).2 := by
  obtain ⟨entries, hload, hsame, hfaithful⟩ := hmatches.read
  obtain ⟨hwritable, hcall⟩ := hmatches.isFit a hask
  obtain ⟨hgrows, hkept, -⟩ := hwritable.step hload hfaithful hcall
  refine ⟨MemoryTable.distinct_step hmatches.distinct a.call, hmatches.hasDirectory.of_grows hgrows,
    fun other hother => ?_, ?_⟩
  · obtain ⟨hother, hvalue⟩ := hmatches.isFit other hother
    exact ⟨hkept other.nonce hother, hvalue⟩
  · rcases hmatches.step_cases hask with
      ⟨_, _, -, hmemory, -, hread⟩ |
        ⟨_, _, before, after, haccepts, -, -, -, hbefore, hlater, hafter⟩
    · refine ⟨entries, ?_, ?_, hfaithful⟩
      · rw [← hload, FileTable.load, FileTable.load, hread]
      · rw [hmemory]
        exact hsame
    · cases hload.symm.trans hbefore
      exact ⟨after, hlater, hafter, haccepts.forall_value hcall hfaithful⟩

/-- Whatever both are asked, they match. -/
theorem after (hmatches : Matches asks m t d) {past : List (Visit α)}
    (hpast : ∀ a ∈ Visit.asks past, a ∈ asks) :
    Matches asks (m.after past) t (t.after d past) := by
  induction past generalizing m d with
  | nil => exact hmatches
  | cons visit past ih =>
      cases visit with
      | ask a =>
          obtain ⟨hask, hrest⟩ := List.forall_mem_cons.mp hpast
          exact ih (hmatches.act hask) hrest
      | reopen =>
          refine ih ?_ hpast
          change Matches asks m t (FileTable.openAt α t.path d).2
          rwa [hmatches.reopened]

end Matches

/-! ### A table of texts where nothing is yet -/

end Table

end CertAuthority
