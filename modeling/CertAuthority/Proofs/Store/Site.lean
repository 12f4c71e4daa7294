import CertAuthority.Proofs.Store.Directory
import CertAuthority.Proofs.Store.Text

/-!
# What a call does to a table

What a call makes of the entries of a table is said once.  A table in memory makes that of its
entries, in another order at most.  A table in a file makes it of the entries that it reads, and
is read afterwards as they were written; or else the call is refused, and the table is read as
before.
-/

namespace CertAuthority

open Json (Codec)

namespace TableCall

variable {α : Type}

/-- What a call makes of the entries that it finds. -/
def change : (call : TableCall α) → Entries α → Except CaError (call.Payload × Entries α)
  | .get key, entries => .ok (entries.find? key, entries)
  | .create key value, entries => FileTable.create key value entries
  | .update key value revision, entries => FileTable.update key value revision entries
  | .delete key revision, entries => FileTable.delete key revision entries
  | .list, entries => .ok (entries, entries)

/-- The value that a call writes. -/
def value? : TableCall α → Option α
  | .create _ value => some value
  | .update _ value _ => some value
  | _ => none

/-- What a call that is accepted finds, answers and leaves. -/
inductive Accepts : (call : TableCall α) → Entries α → call.Payload → Entries α → Prop where
  | get (key : String) (entries : Entries α) :
    Accepts (.get key) entries (entries.find? key) entries
  | create {key : String} (value : α) {entries : Entries α} (hnew : entries.find? key = none) :
    Accepts (.create key value) entries Versioned.firstRevision
      (Snapshot.insert entries key value)
  | update {key : String} (value : α) {entries : Entries α} {held : Versioned α}
    (hheld : entries.find? key = some held) :
    Accepts (.update key value held.revision) entries (Versioned.nextRevision held.revision)
      (entries.replace key (held.overwrite value))
  | delete {key : String} {entries : Entries α} {held : Versioned α}
    (hheld : entries.find? key = some held) :
    Accepts (.delete key held.revision) entries () (entries.erase key)
  | list (entries : Entries α) : Accepts .list entries entries entries

variable {call : TableCall α} {before after : Entries α} {answer : call.Payload}

theorem change_eq_ok_iff :
    call.change before = .ok (answer, after) ↔ call.Accepts before answer after := by
  constructor
  · intro hchange
    cases call with
    | get key =>
        cases hchange
        exact .get key before
    | list =>
        cases hchange
        exact .list before
    | create key value =>
        simp only [change, FileTable.create] at hchange
        split at hchange
        · cases hchange
        · next hnew =>
            cases hchange
            exact .create value hnew
    | update key value revision =>
        simp only [change, FileTable.update] at hchange
        split at hchange
        · cases hchange
        · next held hheld =>
            split at hchange
            · next hrevision =>
                cases hchange
                subst hrevision
                exact .update value hheld
            · cases hchange
    | delete key revision =>
        simp only [change, FileTable.delete] at hchange
        split at hchange
        · cases hchange
        · next held hheld =>
            split at hchange
            · next hrevision =>
                cases hchange
                subst hrevision
                exact .delete hheld
            · cases hchange
  · intro haccepts
    cases haccepts with
    | get => rfl
    | list => rfl
    | create value hnew =>
        simp only [change, FileTable.create, hnew]
        rfl
    | update value hheld =>
        simp only [change, FileTable.update, hheld, if_true]
        rfl
    | delete hheld =>
        simp only [change, FileTable.delete, hheld, if_true]
        rfl

/-- A call is refused only with a conflict under its own key. -/
theorem eq_conflict_of_change {e : CaError} (hchange : call.change before = .error e) :
    e = .conflict call.key := by
  cases call with
  | get key => cases hchange
  | list => cases hchange
  | create key value =>
      simp only [change, FileTable.create] at hchange
      split at hchange
      · cases hchange
        rfl
      · cases hchange
  | update key value revision =>
      simp only [change, FileTable.update] at hchange
      split at hchange
      · cases hchange
        rfl
      · split at hchange
        · cases hchange
        · cases hchange
          rfl
  | delete key revision =>
      simp only [change, FileTable.delete] at hchange
      split at hchange
      · cases hchange
        rfl
      · split at hchange
        · cases hchange
        · cases hchange
          rfl

namespace Accepts

/-- No value comes into a table but the one that is written. -/
theorem forall_value {P : α → Prop} (haccepts : call.Accepts before answer after)
    (hcall : ∀ v ∈ call.value?, P v) (hbefore : ∀ entry ∈ before, P entry.2.value) :
    ∀ entry ∈ after, P entry.2.value := by
  intro entry hentry
  cases haccepts with
  | get => exact hbefore entry hentry
  | list => exact hbefore entry hentry
  | create value hnew =>
      rcases Json.mem_insertField hentry with rfl | hold
      · exact hcall value rfl
      · exact hbefore entry hold
  | update value hheld =>
      rcases Entries.mem_replace hentry with heq | hold
      · rw [heq]
        exact hcall value rfl
      · exact hbefore entry hold
  | delete hheld => exact hbefore entry (List.mem_filter.mp hentry).1

/-- What a call leaves is as a table in a file holds it. -/
theorem isOrderly (haccepts : call.Accepts before answer after)
    (horderly : Snapshot.IsOrderly before) : Snapshot.IsOrderly after := by
  obtain ⟨hascending, hrevision⟩ := horderly
  cases haccepts with
  | get => exact ⟨hascending, hrevision⟩
  | list => exact ⟨hascending, hrevision⟩
  | create value hnew =>
      refine ⟨hascending.insertField _ (.fresh value), fun entry hentry => ?_⟩
      rcases Json.mem_insertField hentry with rfl | hold
      · exact (by decide : Versioned.firstRevision < Nat.pow 2 64)
      · exact hrevision entry hold
  | update value hheld =>
      refine ⟨Entries.ascending_replace hascending _ _, fun entry hentry => ?_⟩
      rcases Entries.mem_replace hentry with heq | hold
      · rw [heq]
        exact Nat.mod_lt _ (by decide)
      · exact hrevision entry hold
  | delete hheld =>
      exact ⟨Entries.ascending_erase hascending _, fun entry hentry =>
        hrevision entry (List.mem_filter.mp hentry).1⟩

end Accepts

/-- That two tables tell the same, be it in another order. -/
def Alike : (call : TableCall α) → call.Payload → call.Payload → Prop
  | .get _, told, other => told = other
  | .create _ _, told, other => told = other
  | .update _ _ _, told, other => told = other
  | .delete _ _, told, other => told = other
  | .list, told, other => List.Perm told other

end TableCall

namespace MemoryTable

variable {α : Type} {m : MemoryTable α} {entries : Entries α}

/-- A table in memory makes of its entries what the call makes of them in any order. -/
theorem step_change (hsame : ∀ key, entries.find? key = m.find? key)
    (hperm : entries.Perm m.entries) (call : TableCall α) :
    (∃ e, call.change entries = .error e ∧ m.step call = (.error e, m)) ∨
      ∃ answer after told, call.Accepts entries answer after ∧ (m.step call).1 = .ok told ∧
        call.Alike answer told ∧ ∀ key, after.find? key = (m.step call).2.find? key := by
  cases call with
  | get key => exact .inr ⟨_, _, _, .get key entries, rfl, hsame key, hsame⟩
  | list => exact .inr ⟨_, _, _, .list entries, rfl, hperm, hsame⟩
  | create key value =>
      rcases m.create_cases key value with ⟨held, hheld, hstep⟩ | ⟨hnone, hreply, hafter⟩
      · refine .inl ⟨.conflict key, ?_, hstep⟩
        simp only [TableCall.change, FileTable.create, hsame, hheld]
        rfl
      · refine .inr ⟨_, _, _, .create value ((hsame key).trans hnone), hreply, rfl, fun other => ?_⟩
        rw [Entries.find?_insert, hsame]
        exact (hafter other).symm
  | update key value revision =>
      rcases m.update_cases key value revision with
        ⟨hstale, hstep⟩ | ⟨held, hheld, rfl, hreply, hafter⟩
      · refine .inl ⟨.conflict key, ?_, hstep⟩
        simp only [TableCall.change, FileTable.update, hsame]
        cases hfind : m.find? key with
        | none => rfl
        | some held => exact if_neg (hstale held hfind)
      · have hold := (hsame key).trans hheld
        refine .inr ⟨_, _, _, .update value hold, hreply, rfl, fun other => ?_⟩
        rw [Entries.find?_replace _ hold, hsame]
        exact (hafter other).symm
  | delete key revision =>
      rcases m.delete_cases key revision with
        ⟨hstale, hstep⟩ | ⟨held, hheld, rfl, hreply, hafter⟩
      · refine .inl ⟨.conflict key, ?_, hstep⟩
        simp only [TableCall.change, FileTable.delete, hsame]
        cases hfind : m.find? key with
        | none => rfl
        | some held => exact if_neg (hstale held hfind)
      · refine .inr ⟨_, _, _, .delete ((hsame key).trans hheld), hreply, rfl, fun other => ?_⟩
        rw [Entries.find?_erase, hsame]
        exact (hafter other).symm

end MemoryTable

namespace FileTable

variable {α : Type} [Codec α] {t : FileTable} {d later : Disk} {entries : Entries α}

/-- What a table in a file is read as is orderly. -/
theorem isOrderly_of_load (hload : t.load d = .ok entries) : Snapshot.IsOrderly entries := by
  unfold load at hload
  split at hload
  · cases hload
    exact ⟨List.Pairwise.nil, List.forall_mem_nil _⟩
  · cases hload
  · split at hload
    · next hdecode =>
        cases hload
        exact Snapshot.isOrderly_of_decode hdecode
    · cases hload

/-- What is read after a call that has changed a table. -/
theorem load_of_changed {place : Place} {before after : Entries α}
    (hchanged : Changed t d later place before after) (horderly : Snapshot.IsOrderly after) :
    t.load later = match Snapshot.retoldEntries after with
      | some entries => .ok entries
      | none => .error (.storage ("Corrupt store file " ++ t.path)) := by
  have hload := load_of_file (t := t) (α := α) (hchanged.grows.stands_iff.mpr hchanged.stands)
    hchanged.file (by decide)
  rw [Snapshot.decode_encode horderly] at hload
  exact hload

/-- A call changes the table under its lock, or is answered from what is read. -/
theorem step_eq (t : FileTable) (nonce : Nat) (d : Disk) (call : TableCall α) :
    t.step nonce d call = t.mutate nonce d call.change ∨
      ∃ answer : Entries α → call.Payload, t.step nonce d call = ((t.load d).map answer, d) ∧
        ∀ entries, call.change entries = .ok (answer entries, entries) := by
  cases call with
  | create key value => exact .inl rfl
  | update key value revision => exact .inl rfl
  | delete key revision => exact .inl rfl
  | get key => exact .inr ⟨(·.find? key), rfl, fun _ => rfl⟩
  | list =>
      refine .inr ⟨id, ?_, fun _ => rfl⟩
      change (t.load d, d) = _
      cases t.load (α := α) d <;> rfl

/-- A call is refused, is answered from what is read, or is answered and written. -/
theorem step_cases (t : FileTable) (nonce : Nat) (d : Disk) (call : TableCall α) :
    (∃ e, (t.step nonce d call).1 = .error e ∧ Refused d (t.step nonce d call).2 ∧
        ((∃ message, e = .storage message) ∨
          ∃ before, t.load d = .ok before ∧ call.change before = .error e)) ∨
      ∃ answer before after, (t.step nonce d call).1 = .ok answer ∧
        call.Accepts before answer after ∧ t.load d = .ok before ∧
          ((t.step nonce d call).2 = d ∧ after = before ∨
            ∃ place, Changed t d (t.step nonce d call).2 place before after) := by
  rcases step_eq t nonce d call with hstep | ⟨answer, hstep, hchange⟩
  · rw [hstep]
    rcases mutate_cases t nonce d call.change with
      hrefused | ⟨answer, before, after, place, hdone, hchange, hchanged⟩
    · exact .inl hrefused
    · exact .inr ⟨answer, before, after, hdone, TableCall.change_eq_ok_iff.mp hchange,
        hchanged.load, .inr ⟨place, hchanged⟩⟩
  · rw [hstep]
    cases hload : t.load (α := α) d with
    | error e => exact .inl ⟨e, rfl, ⟨.refl d, .refl d⟩, .inl (storage_of_load hload)⟩
    | ok entries =>
        exact .inr ⟨answer entries, entries, entries, rfl,
          TableCall.change_eq_ok_iff.mp (hchange entries), rfl, .inl ⟨rfl, rfl⟩⟩

end FileTable

namespace Table

variable {α : Type} [Codec α]

/-- A table and the disk that it may be on. -/
structure Site (α : Type) where
  table : Table α
  disk : Disk

/-- A call, with what tells its temporary file from all others. -/
structure Ask (α : Type) where
  nonce : Nat
  call : TableCall α

namespace Site

def reply (s : Site α) (a : Ask α) : a.call.Reply :=
  (s.table.step a.nonce s.disk a.call).1

def act (s : Site α) (a : Ask α) : Site α :=
  ⟨(s.table.step a.nonce s.disk a.call).2.1, (s.table.step a.nonce s.disk a.call).2.2⟩

def after (s : Site α) (asks : List (Ask α)) : Site α :=
  asks.foldl act s

/-- What whoever lists the table is told. -/
def content (s : Site α) : Except CaError (Entries α) :=
  s.reply ⟨0, .list⟩

/-- A table in memory, or in a file, before it is asked anything. -/
def start (file : Option FileTable) (d : Disk) : Site α :=
  match file with
  | none => ⟨.memory .empty, d⟩
  | some t => ⟨.file t, d⟩

/-- A call is refused, and the table tells nothing else than before; or it is accepted, and if the
table tells anything, then under each key the revision that the call has left. -/
theorem act_cases (s : Site α) (a : Ask α) :
    (∃ e, s.reply a = .error e ∧
        ((∃ t message, s.table = .file t ∧ e = .storage message) ∨
          ∃ before, s.content = .ok before ∧ a.call.change before = .error e) ∧
        ∀ entries, (s.act a).content = .ok entries → s.content = .ok entries) ∨
      ∃ told answer before left, s.reply a = .ok told ∧ a.call.Accepts before answer left ∧
        s.content = .ok before ∧ ∀ entries, (s.act a).content = .ok entries → ∀ key,
          (entries.find? key).map (·.revision) = (left.find? key).map (·.revision) := by
  obtain ⟨table, d⟩ := s
  cases table with
  | memory m =>
      rcases m.step_change (fun _ => rfl) (.refl _) a.call with
        ⟨e, hchange, hstep⟩ | ⟨answer, left, told, haccepts, htold, -, hsame⟩
      · refine .inl ⟨e, congrArg Prod.fst hstep, .inr ⟨m.entries, rfl, hchange⟩,
          fun entries hentries => ?_⟩
        have hkept : (m.step a.call).2 = m := congrArg Prod.snd hstep
        change Except.ok (m.step a.call).2.entries = _ at hentries
        rwa [hkept] at hentries
      · refine .inr ⟨told, answer, m.entries, left, htold, haccepts, rfl,
          fun entries hentries key => ?_⟩
        cases hentries
        rw [hsame key]
        rfl
  | file t =>
      rcases t.step_cases a.nonce d a.call with
        ⟨e, hfailed, hrefused, hwhy⟩ | ⟨answer, before, left, hdone, haccepts, hload, hleft⟩
      · exact .inl ⟨e, hfailed, hwhy.imp_left fun ⟨message, he⟩ => ⟨t, message, rfl, he⟩,
          fun entries hentries => FileTable.load_of_refused hrefused hentries⟩
      · refine .inr ⟨answer, answer, before, left, hdone, haccepts, hload,
          fun entries hentries key => ?_⟩
        change t.load (t.step a.nonce d a.call).2 = _ at hentries
        rcases hleft with ⟨hsame, rfl⟩ | ⟨place, hchanged⟩
        · rw [hsame, hload] at hentries
          cases hentries
          rfl
        · rw [FileTable.load_of_changed hchanged
            (haccepts.isOrderly (FileTable.isOrderly_of_load hload))] at hentries
          cases hretold : Snapshot.retoldEntries left with
          | none =>
              rw [hretold] at hentries
              cases hentries
          | some later =>
              rw [hretold] at hentries
              cases hentries
              exact Snapshot.revision_of_retoldEntries hretold key

end Site

end Table

end CertAuthority
