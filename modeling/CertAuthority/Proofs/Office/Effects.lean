import CertAuthority.Proofs.Office.Basic

/-!
# What one effect leaves

The log grows by one event.  A table changes only by a write that it accepts, and then under the
key of that write only; so what is true of every key, given its entry and the writes that were
accepted under it, has to be looked at again for the one key that is written.
-/

namespace CertAuthority

/-- Whether an effect asks a table to write. -/
def Effect.writesTo (name : TableName) : Effect → Bool
  | .table other (.create _ _) => other = name
  | .table other (.update _ _ _) => other = name
  | .table other (.delete _ _) => other = name
  | _ => false

/-- Which entry may stand under a key after which writes. -/
abbrev Rule (name : TableName) := String → Option (Versioned name.Row) → List Event → Prop

namespace World

variable {w : World} {stores : Stores} {chance : Chance} {task : Nat}

/-- That a rule holds under every key of a table. -/
def Ruled (name : TableName) (rule : Rule name) (w : World) : Prop :=
  ∀ key, rule key (w.find? name key) (w.writes name key)

/-- No key stands twice in a table. -/
def Orderly (w : World) : Prop :=
  ∀ name, (w.tables name).entries.Distinct

theorem log_prefix_after (w : World) (stores : Stores) (chance : Chance) (task : Nat)
    (e : Effect) : w.log <+: (w.after stores chance task e).log :=
  List.prefix_append _ _

theorem past_after (w : World) (stores : Stores) (chance : Chance) (task : Nat) (e : Effect) :
    (w.after stores chance task e).past task =
      w.past task ++ [⟨task, e, w.reply stores chance e⟩] := by
  simp [past, after]

theorem past_after_of_ne (w : World) (stores : Stores) (chance : Chance) {task other : Nat}
    (hother : other ≠ task) (e : Effect) :
    (w.after stores chance other e).past task = w.past task := by
  simp [past, after, hother]

theorem writes_after (w : World) (stores : Stores) (chance : Chance) (task : Nat) (e : Effect)
    (name : TableName) (key : String) :
    (w.after stores chance task e).writes name key =
      w.writes name key ++
        if (Event.mk task e (w.reply stores chance e)).writesAt name key then
          [⟨task, e, w.reply stores chance e⟩]
        else [] := by
  simp only [writes, after, List.filter_append, List.filter_cons, List.filter_nil]

theorem mem_log_of_mem_writes {name : TableName} {key : String} {event : Event}
    (hevent : event ∈ w.writes name key) : event ∈ w.log :=
  (List.mem_filter.mp hevent).1

theorem mem_past_iff {event : Event} : event ∈ w.past task ↔ event ∈ w.log ∧ event.task = task := by
  simp [past]

/-- A call to a table either fails without a trace or is answered by the table. -/
theorem respond_table_cases (stores : Stores) (chance : Chance) (tables : MemoryTables)
    (name : TableName) (call : TableCall name.Row) :
    (∃ fault : TableFault,
        respond stores chance tables (.table name call) = (call.failed fault.error, tables)) ∨
      respond stores chance tables (.table name call) =
        (((tables name).step call).1,
          Function.update tables name ((tables name).step call).2) := by
  simp only [respond]
  split
  · next fault _ => exact .inl ⟨fault, rfl⟩
  · exact .inr rfl

theorem Orderly.after (horderly : w.Orderly) (stores : Stores) (chance : Chance) (task : Nat)
    (e : Effect) : (w.after stores chance task e).Orderly := by
  intro name
  cases e with
  | table written call =>
      simp only [World.after]
      rcases respond_table_cases stores chance w.tables written call with ⟨fault, h⟩ | h
      · rw [h]
        exact horderly name
      · rw [h]
        by_cases hname : name = written
        · subst hname
          simpa using MemoryTable.distinct_step (horderly name) call
        · simpa [Function.update_of_ne hname] using horderly name
  | now => exact horderly name
  | random count => exact horderly name
  | lock id => exact horderly name
  | unlock id => exact horderly name

theorem Reachable.orderly (hreachable : w.Reachable stores) : w.Orderly := by
  induction hreachable with
  | empty => exact fun _ => List.nodup_nil
  | after chance task e _ ih => exact ih.after stores chance task e

theorem reply_get (w : World) (stores : Stores) (chance : Chance) (name : TableName)
    (key : String) :
    (∃ error, error.isOfTable ∧
        w.reply stores chance (.table name (.get key)) = .error error) ∨
      w.reply stores chance (.table name (.get key)) = .ok (w.find? name key) := by
  unfold reply
  rcases respond_table_cases stores chance w.tables name (.get key) with ⟨fault, h⟩ | h
  · exact .inl ⟨fault.error, fault.ofTable, by rw [h]; rfl⟩
  · exact .inr (by rw [h]; rfl)

/-- A reading fails only where stores may fail. -/
theorem failing_of_get_error {w : World} {stores : Stores} {chance : Chance} {name : TableName}
    {key : String} {e : CaError}
    (herror : w.reply stores chance (.table name (.get key)) = .error e) : stores = .failing := by
  cases stores with
  | failing => rfl
  | reliable => simp [reply, respond, MemoryTable.step] at herror

/-- A reading shows the entry if and only if it does not fail by itself. -/
theorem reply_get_eq_ok_iff {w : World} {stores : Stores} {chance : Chance} {name : TableName}
    {key : String} {found : Option (Versioned name.Row)} :
    w.reply stores chance (.table name (.get key)) = .ok found ↔
      w.find? name key = found ∧ (stores = .failing → chance.fault = none) := by
  cases stores with
  | reliable => exact ⟨fun h => ⟨Except.ok.inj h, nofun⟩, fun h => congrArg Except.ok h.1⟩
  | failing =>
      obtain ⟨time, byte, fault⟩ := chance
      cases fault with
      | none => exact ⟨fun h => ⟨Except.ok.inj h, fun _ => rfl⟩, fun h => congrArg Except.ok h.1⟩
      | some fault => exact ⟨nofun, fun h => absurd (h.2 rfl) nofun⟩

/-- A call that does not fail by itself is answered by the table. -/
theorem reply_of_faultless {w : World} (stores : Stores) {chance : Chance}
    (hfault : chance.fault = none) {name : TableName} (call : TableCall name.Row) :
    w.reply stores chance (.table name call) = ((w.tables name).step call).1 := by
  simp only [reply, respond, hfault]

/-- A change comes too late for an entry that is not at its revision. -/
theorem reply_update_of_stale {w : World} (stores : Stores) {chance : Chance}
    (hfault : chance.fault = none) {name : TableName} {key : String} {revision : Nat}
    (hstale : ∀ held, w.find? name key = some held → held.revision ≠ revision)
    (value : name.Row) :
    w.reply stores chance (.table name (.update key value revision)) = .error (.conflict key) := by
  rw [reply_of_faultless stores hfault, MemoryTable.step]
  rcases (w.tables name).update_cases key value revision with
    ⟨-, hrefused⟩ | ⟨held, hheld, hrevision, -, -⟩
  · exact congrArg Prod.fst hrefused
  · exact absurd hrevision (hstale held hheld)

theorem reply_list (w : World) (stores : Stores) (chance : Chance) (name : TableName) :
    (∃ error, error.isOfTable ∧ w.reply stores chance (.table name .list) = .error error) ∨
      w.reply stores chance (.table name .list) = .ok (w.tables name).entries := by
  unfold reply
  rcases respond_table_cases stores chance w.tables name .list with ⟨fault, h⟩ | h
  · exact .inl ⟨fault.error, fault.ofTable, by rw [h]; rfl⟩
  · exact .inr (by rw [h]; rfl)

/-- A creation is refused without a trace, or the key was new and has its entry now. -/
theorem create_cases (w : World) (stores : Stores) (chance : Chance) (task : Nat)
    (name : TableName) (key : String) (value : name.Row) :
    (∃ error, error.isOfTable ∧
        w.reply stores chance (.table name (.create key value)) = .error error ∧
        (w.after stores chance task (.table name (.create key value))).tables = w.tables) ∨
      (w.find? name key = none ∧
        w.reply stores chance (.table name (.create key value)) = .ok Versioned.firstRevision ∧
        ∀ other, (w.after stores chance task (.table name (.create key value))).find? name other =
          if other = key then some (.fresh value) else w.find? name other) := by
  unfold reply after
  rcases respond_table_cases stores chance w.tables name (.create key value) with ⟨fault, h⟩ | h
  · exact .inl ⟨fault.error, fault.ofTable, by rw [h]; exact ⟨rfl, rfl⟩⟩
  · rw [h]
    rcases (w.tables name).create_cases key value with ⟨held, -, hrefused⟩ | ⟨hnew, hreply, hfind⟩
    · refine .inl ⟨.conflict key, rfl, congrArg Prod.fst hrefused, ?_⟩
      simp only [MemoryTable.step, hrefused]
      exact Function.update_eq_self _ _
    · refine .inr ⟨hnew, hreply, fun other => ?_⟩
      simp only [find?, Function.update_self]
      exact hfind other

/-- A creation that was refused found its key taken, unless stores may fail. -/
theorem create_error_cases {w : World} {stores : Stores} {chance : Chance} {name : TableName}
    {key : String} {value : name.Row} {e : CaError}
    (herror : w.reply stores chance (.table name (.create key value)) = .error e) :
    stores = .failing ∨ e = .conflict key ∧ ∃ held, w.find? name key = some held := by
  cases stores with
  | failing => exact .inl rfl
  | reliable =>
      simp only [reply, respond] at herror
      rcases (w.tables name).create_cases key value with ⟨held, hheld, hrefused⟩ | ⟨-, hok, -⟩
      · rw [MemoryTable.step, hrefused] at herror
        exact .inr ⟨(Except.error.inj herror).symm, held, hheld⟩
      · rw [MemoryTable.step, hok] at herror
        cases herror

/-- A change is refused without a trace, or the entry was at its revision and is at the next one
now. -/
theorem update_cases (w : World) (stores : Stores) (chance : Chance) (task : Nat)
    (name : TableName) (key : String) (value : name.Row) (revision : Nat) :
    (∃ error, error.isOfTable ∧
        w.reply stores chance (.table name (.update key value revision)) = .error error ∧
        (w.after stores chance task (.table name (.update key value revision))).tables =
          w.tables) ∨
      (∃ held, w.find? name key = some held ∧ held.revision = revision ∧
        w.reply stores chance (.table name (.update key value revision)) =
          .ok (Versioned.nextRevision revision) ∧
        ∀ other,
          (w.after stores chance task (.table name (.update key value revision))).find? name
              other =
            if other = key then some ⟨value, Versioned.nextRevision revision⟩
            else w.find? name other) := by
  unfold reply after
  rcases respond_table_cases stores chance w.tables name (.update key value revision) with
    ⟨fault, h⟩ | h
  · exact .inl ⟨fault.error, fault.ofTable, by rw [h]; exact ⟨rfl, rfl⟩⟩
  · rw [h]
    rcases (w.tables name).update_cases key value revision with
      ⟨-, hrefused⟩ | ⟨held, hheld, hrevision, hreply, hfind⟩
    · refine .inl ⟨.conflict key, rfl, congrArg Prod.fst hrefused, ?_⟩
      simp only [MemoryTable.step, hrefused]
      exact Function.update_eq_self _ _
    · refine .inr ⟨held, hheld, hrevision, hreply, fun other => ?_⟩
      simp only [find?, Function.update_self]
      exact hfind other

/-- A change that was refused, where calls do not fail by themselves, was a conflict. -/
theorem Reachable.conflict_of_refused (hreachable : w.Reachable .reliable) {name : TableName}
    {key : String} {value : name.Row} {revision : Nat} {error : CaError}
    (hrefused : ⟨task, .table name (.update key value revision), .error error⟩ ∈ w.log) :
    error = .conflict key := by
  induction hreachable with
  | empty => cases hrefused
  | after chance other e _ ih =>
      simp only [World.after, List.mem_append, List.mem_singleton] at hrefused
      rcases hrefused with hold | hnew
      · exact ih hold
      · injection hnew with _ heffect hreply
        subst heffect
        have hanswer := eq_of_heq hreply
        simp only [reply, respond] at hanswer
        rcases MemoryTable.update_cases _ key value revision with
          ⟨-, hconflict⟩ | ⟨-, -, -, haccepted, -⟩
        · rw [MemoryTable.step, hconflict] at hanswer
          exact Except.error.inj hanswer
        · rw [MemoryTable.step, haccepted] at hanswer
          cases hanswer

/-- A removal is refused without a trace, or the entry was at its revision and is gone. -/
theorem delete_cases (w : World) (stores : Stores) (chance : Chance) (task : Nat)
    (name : TableName) (key : String) (revision : Nat) :
    (∃ error, error.isOfTable ∧
        w.reply stores chance (.table name (.delete key revision)) = .error error ∧
        (w.after stores chance task (.table name (.delete key revision))).tables = w.tables) ∨
      (∃ held, w.find? name key = some held ∧ held.revision = revision ∧
        w.reply stores chance (.table name (.delete key revision)) = .ok () ∧
        ∀ other,
          (w.after stores chance task (.table name (.delete key revision))).find? name other =
            if other = key then none else w.find? name other) := by
  unfold reply after
  rcases respond_table_cases stores chance w.tables name (.delete key revision) with
    ⟨fault, h⟩ | h
  · exact .inl ⟨fault.error, fault.ofTable, by rw [h]; exact ⟨rfl, rfl⟩⟩
  · rw [h]
    rcases (w.tables name).delete_cases key revision with
      ⟨-, hrefused⟩ | ⟨held, hheld, hrevision, hreply, hfind⟩
    · refine .inl ⟨.conflict key, rfl, congrArg Prod.fst hrefused, ?_⟩
      simp only [MemoryTable.step, hrefused]
      exact Function.update_eq_self _ _
    · refine .inr ⟨held, hheld, hrevision, hreply, fun other => ?_⟩
      simp only [find?, Function.update_self]
      exact hfind other

theorem tables_after_of_ne (w : World) (stores : Stores) (chance : Chance) (task : Nat)
    {name written : TableName} (hname : name ≠ written) (call : TableCall written.Row) :
    (w.after stores chance task (.table written call)).tables name = w.tables name := by
  simp only [after]
  rcases respond_table_cases stores chance w.tables written call with ⟨fault, h⟩ | h
  · rw [h]
  · rw [h]
    exact Function.update_of_ne hname _ _

/-- An effect that asks no write of a table leaves the table. -/
theorem tables_after_of_not_writesTo (w : World) (stores : Stores) (chance : Chance) (task : Nat)
    {name : TableName} {e : Effect} (he : e.writesTo name = false) :
    (w.after stores chance task e).tables name = w.tables name := by
  cases e with
  | table written call =>
      by_cases hname : name = written
      · subst hname
        simp only [after]
        rcases respond_table_cases stores chance w.tables name call with ⟨fault, h⟩ | h
        · rw [h]
        · rw [h]
          cases call with
          | get key => simp [MemoryTable.step]
          | list => simp [MemoryTable.step]
          | create key value => simp [Effect.writesTo] at he
          | update key value revision => simp [Effect.writesTo] at he
          | delete key revision => simp [Effect.writesTo] at he
      · exact tables_after_of_ne w stores chance task hname call
  | now => rfl
  | random count => rfl
  | lock id => rfl
  | unlock id => rfl

/-! ### The tables after a call -/

section Tables

variable {name : TableName} {key : String} {value : name.Row}

/-- A call that is not answered by an error is answered by the table. -/
theorem respond_of_ok (task : Nat) {call : TableCall name.Row} {payload : call.Payload}
    (hok : w.reply stores chance (.table name call) = .ok payload) :
    ((w.tables name).step call).1 = .ok payload ∧
      (w.after stores chance task (.table name call)).tables =
        Function.update w.tables name ((w.tables name).step call).2 := by
  unfold reply at hok
  unfold after
  rcases respond_table_cases stores chance w.tables name call with ⟨fault, hfailed⟩ | hdone
  · rw [hfailed] at hok
    cases hok
  · rw [hdone] at hok ⊢
    exact ⟨hok, rfl⟩

/-- A call that is answered by an error leaves the tables as they were. -/
theorem tables_of_refused (task : Nat) {call : TableCall name.Row} {e : CaError}
    (herror : w.reply stores chance (.table name call) = .error e) :
    e.isOfTable ∧ (w.after stores chance task (.table name call)).tables = w.tables := by
  unfold reply at herror
  unfold after
  rcases respond_table_cases stores chance w.tables name call with ⟨fault, hfailed⟩ | hdone
  · rw [hfailed] at herror ⊢
    cases herror
    exact ⟨fault.ofTable, rfl⟩
  · rw [hdone] at herror ⊢
    obtain ⟨rfl, hkept⟩ := MemoryTable.step_of_error herror
    rw [hkept]
    exact ⟨rfl, Function.update_eq_self _ _⟩

/-- A table that does not fail refuses only what has a conflict. -/
theorem eq_conflict_of_error {call : TableCall name.Row} {e : CaError}
    (herror : w.reply .reliable chance (.table name call) = .error e) : e = .conflict call.key :=
  (MemoryTable.step_of_error (t := w.tables name) herror).1

/-- A key under which a creation was accepted was free. -/
theorem free_of_created {revision : Nat}
    (hok : w.reply stores chance (.table name (.create key value)) = .ok revision) :
    w.find? name key = none := by
  rcases w.create_cases stores chance 0 name key value with ⟨e, -, herror, -⟩ | ⟨hfree, -, -⟩
  · cases herror.symm.trans hok
  · exact hfree

/-- The tables after a creation that was accepted. -/
theorem tables_of_created (task : Nat) {revision : Nat}
    (hok : w.reply stores chance (.table name (.create key value)) = .ok revision) :
    (w.after stores chance task (.table name (.create key value))).tables =
      Function.update w.tables name ⟨(w.tables name).entries ++ [(key, .fresh value)]⟩ := by
  obtain ⟨hcreated, htables⟩ := respond_of_ok task hok
  rw [htables]
  rw [MemoryTable.step] at hcreated ⊢
  unfold MemoryTable.create at hcreated ⊢
  split at hcreated
  · cases hcreated
  · rfl

/-- The tables after a change that was accepted. -/
theorem tables_of_changed (task : Nat) {held : Versioned name.Row}
    (hfind : w.find? name key = some held) {revision : Nat}
    (hok : w.reply stores chance (.table name (.update key value held.revision)) = .ok revision) :
    (w.after stores chance task (.table name (.update key value held.revision))).tables =
      Function.update w.tables name
        ⟨(w.tables name).entries.replace key (held.overwrite value)⟩ := by
  obtain ⟨-, htables⟩ := respond_of_ok task hok
  have hheld : (w.tables name).entries.find? key = some held := hfind
  rw [htables, MemoryTable.step]
  simp only [MemoryTable.update, hheld, if_true]

/-- A change that was accepted was made at the revision of the entry. -/
theorem current_of_changed {revision next : Nat}
    (hok : w.reply stores chance (.table name (.update key value revision)) = .ok next) :
    ∃ held, w.find? name key = some held ∧ revision = held.revision := by
  rcases w.update_cases stores chance 0 name key value revision with
    ⟨error, -, herror, -⟩ | ⟨held, hheld, hrevision, -, -⟩
  · cases herror.symm.trans hok
  · exact ⟨held, hheld, hrevision.symm⟩

/-- The tables after a removal that was accepted. -/
theorem tables_of_removed (task : Nat) {revision : Nat}
    (hok : w.reply stores chance (.table name (.delete key revision)) = .ok ()) :
    ∃ held, w.find? name key = some held ∧ held.revision = revision ∧
      (w.after stores chance task (.table name (.delete key revision))).tables =
        Function.update w.tables name ⟨(w.tables name).entries.erase key⟩ := by
  obtain ⟨hremoved, htables⟩ := respond_of_ok task hok
  rw [htables]
  rw [MemoryTable.step] at hremoved ⊢
  unfold MemoryTable.delete at hremoved ⊢
  split at hremoved
  · cases hremoved
  · next held hheld =>
      split at hremoved
      · next hrevision => exact ⟨held, hheld, hrevision, by rw [if_pos hrevision]⟩
      · cases hremoved

/-- A creation under a new key puts its entry behind the others. -/
theorem create_of_new (chance : Chance) (task : Nat) (value : name.Row)
    (hnew : w.find? name key = none) :
    w.reply .reliable chance (.table name (.create key value)) = .ok Versioned.firstRevision ∧
      (w.after .reliable chance task (.table name (.create key value))).tables =
        Function.update w.tables name ⟨(w.tables name).entries ++ [(key, .fresh value)]⟩ := by
  have hok : w.reply .reliable chance (.table name (.create key value)) =
      .ok Versioned.firstRevision := by
    have hfind : (w.tables name).entries.find? key = none := hnew
    change ((w.tables name).create key value).1 = _
    rw [MemoryTable.create, hfind]
    rfl
  exact ⟨hok, tables_of_created task hok⟩

/-- An update at the revision of the entry replaces the entry. -/
theorem update_of_current {held : Versioned name.Row} (chance : Chance) (task : Nat)
    (value : name.Row) (hfind : w.find? name key = some held) :
    w.reply .reliable chance (.table name (.update key value held.revision)) =
        .ok (held.overwrite value).revision ∧
      (w.after .reliable chance task (.table name (.update key value held.revision))).tables =
        Function.update w.tables name
          ⟨(w.tables name).entries.replace key (held.overwrite value)⟩ := by
  have hok : w.reply .reliable chance (.table name (.update key value held.revision)) =
      .ok (held.overwrite value).revision := by
    have hheld : (w.tables name).entries.find? key = some held := hfind
    change ((w.tables name).update key value held.revision).1 = _
    simp only [MemoryTable.update, hheld, if_true]
    rfl
  exact ⟨hok, tables_of_changed task hfind hok⟩

/-- A removal at the revision of the entry takes the entry out. -/
theorem delete_of_current {held : Versioned name.Row} (chance : Chance) (task : Nat)
    (hfind : w.find? name key = some held) :
    w.reply .reliable chance (.table name (.delete key held.revision)) = .ok () ∧
      (w.after .reliable chance task (.table name (.delete key held.revision))).tables =
        Function.update w.tables name ⟨(w.tables name).entries.erase key⟩ := by
  have hok : w.reply .reliable chance (.table name (.delete key held.revision)) = .ok () := by
    have hheld : (w.tables name).entries.find? key = some held := hfind
    change ((w.tables name).delete key held.revision).1 = _
    rw [MemoryTable.delete, hheld]
    exact congrArg Prod.fst (if_pos rfl)
  obtain ⟨-, -, -, htables⟩ := tables_of_removed task hok
  exact ⟨hok, htables⟩

/-- An update at the revision of the entry fails only where stores may fail. -/
theorem failing_of_update_error {held : Versioned name.Row} {e : CaError}
    (hfind : w.find? name key = some held)
    (herror : w.reply stores chance (.table name (.update key value held.revision)) = .error e) :
    stores = .failing := by
  cases stores with
  | failing => rfl
  | reliable =>
      rw [(update_of_current chance 0 value hfind).1] at herror
      cases herror

end Tables

end World

namespace Event

/-- The removal of an entry at a revision. -/
def removal (task : Nat) (name : TableName) (key : String) (revision : Nat) : Event :=
  ⟨task, .table name (.delete key revision), .ok ()⟩

variable {name written : TableName} {key other : String} {task revision : Nat}

@[simp]
theorem writesAt_creation (value : written.Row) :
    (creation task written other value).writesAt name key = decide (written = name ∧ other = key) :=
  rfl

@[simp]
theorem writesAt_change (value : written.Row) :
    (change task written other value revision).writesAt name key =
      decide (written = name ∧ other = key) :=
  rfl

@[simp]
theorem writesAt_removal :
    (removal task written other revision).writesAt name key =
      decide (written = name ∧ other = key) :=
  rfl

theorem not_isWrite_of_refused (task : Nat) (call : TableCall written.Row) (error : CaError) :
    (Event.mk task (.table written call) (.error error)).isWrite = false := by
  cases call <;> rfl

theorem not_writesAt_of_not_isWrite {event : Event} (hevent : event.isWrite = false) :
    event.writesAt name key = false := by
  simp [writesAt, hevent]

theorem not_writesAt_of_not_writesTo {e : Effect} (he : e.writesTo name = false) (task : Nat)
    (reply : e.Reply) : (Event.mk task e reply).writesAt name key = false := by
  cases e with
  | table written call =>
      cases call with
      | get key => simp [writesAt, isWrite]
      | list => simp [writesAt, isWrite]
      | create key value => simp_all [writesAt, Effect.writesTo]
      | update key value revision => simp_all [writesAt, Effect.writesTo]
      | delete key revision => simp_all [writesAt, Effect.writesTo]
  | now => rfl
  | random count => rfl
  | lock id => rfl
  | unlock id => rfl

end Event

namespace World.Ruled

variable {w found : World} {name : TableName} {rule : Rule name}

theorem of_same (hruled : w.Ruled name rule) (htables : found.tables name = w.tables name)
    (hwrites : ∀ key, found.writes name key = w.writes name key) : found.Ruled name rule := by
  intro key
  have hkey := hruled key
  rwa [World.find?, ← htables, ← hwrites] at hkey

/-- What is neither accepted as a write nor a change of the tables changes nothing. -/
theorem after_refused (hruled : w.Ruled name rule) {stores : Stores} {chance : Chance}
    {task : Nat} {e : Effect} (htables : (w.after stores chance task e).tables = w.tables)
    (hevent : (Event.mk task e (w.reply stores chance e)).isWrite = false) :
    (w.after stores chance task e).Ruled name rule := by
  apply hruled.of_same (by rw [htables])
  intro key
  rw [writes_after, if_neg (by simp [Event.not_writesAt_of_not_isWrite hevent]),
    List.append_nil]

/-- An effect that asks no write of the table keeps the rule. -/
theorem after_other (hruled : w.Ruled name rule) (stores : Stores) (chance : Chance) (task : Nat)
    {e : Effect} (he : e.writesTo name = false) :
    (w.after stores chance task e).Ruled name rule := by
  apply hruled.of_same (tables_after_of_not_writesTo w stores chance task he)
  intro key
  rw [writes_after, if_neg (by simp [Event.not_writesAt_of_not_writesTo he _ _]), List.append_nil]

/-- A write that was accepted keeps the rule if it does so under its own key. -/
theorem after_write (hruled : w.Ruled name rule) {stores : Stores} {chance : Chance}
    {task : Nat} {e : Effect} (event : Event) (key : String)
    {held? : Option (Versioned name.Row)}
    (hevent : Event.mk task e (w.reply stores chance e) = event)
    (hwrites : ∀ other, event.writesAt name other = decide (key = other))
    (hfind : ∀ other, (w.after stores chance task e).find? name other =
      if other = key then held? else w.find? name other)
    (hkey : rule key held? (w.writes name key ++ [event])) :
    (w.after stores chance task e).Ruled name rule := by
  intro other
  rw [writes_after, hevent, hfind, hwrites]
  by_cases hother : other = key
  · subst hother
    simpa using hkey
  · simpa [hother, Ne.symm hother] using hruled other

/-- A creation keeps the rule if it does so under a key that is new. -/
theorem after_create (hruled : w.Ruled name rule) (stores : Stores) (chance : Chance)
    (task : Nat) (key : String) (value : name.Row)
    (hkey : w.find? name key = none →
      rule key (some (.fresh value)) (w.writes name key ++ [.creation task name key value])) :
    (w.after stores chance task (.table name (.create key value))).Ruled name rule := by
  rcases w.create_cases stores chance task name key value with
    ⟨error, -, hreply, htables⟩ | ⟨hnew, hreply, hfind⟩
  · apply hruled.after_refused htables
    rw [hreply]
    exact Event.not_isWrite_of_refused _ _ _
  · apply hruled.after_write (.creation task name key value) key _ _ hfind
      (hkey hnew)
    · rw [hreply]
      rfl
    · simp

/-- A change keeps the rule if it does so for an entry at its revision. -/
theorem after_update (hruled : w.Ruled name rule) (stores : Stores) (chance : Chance)
    (task : Nat) (key : String) (value : name.Row) (revision : Nat)
    (hkey : ∀ held, w.find? name key = some held → held.revision = revision →
      rule key (some ⟨value, Versioned.nextRevision revision⟩)
        (w.writes name key ++ [.change task name key value revision])) :
    (w.after stores chance task (.table name (.update key value revision))).Ruled name rule := by
  rcases w.update_cases stores chance task name key value revision with
    ⟨error, -, hreply, htables⟩ | ⟨held, hheld, hrevision, hreply, hfind⟩
  · apply hruled.after_refused htables
    rw [hreply]
    exact Event.not_isWrite_of_refused _ _ _
  · apply hruled.after_write (.change task name key value revision) key _ _ hfind
      (hkey held hheld hrevision)
    · rw [hreply]
      rfl
    · simp

/-- A removal keeps the rule if it does so for an entry at its revision. -/
theorem after_delete (hruled : w.Ruled name rule) (stores : Stores) (chance : Chance)
    (task : Nat) (key : String) (revision : Nat)
    (hkey : ∀ held, w.find? name key = some held → held.revision = revision →
      rule key none (w.writes name key ++ [.removal task name key revision])) :
    (w.after stores chance task (.table name (.delete key revision))).Ruled name rule := by
  rcases w.delete_cases stores chance task name key revision with
    ⟨error, -, hreply, htables⟩ | ⟨held, hheld, hrevision, hreply, hfind⟩
  · apply hruled.after_refused htables
    rw [hreply]
    exact Event.not_isWrite_of_refused _ _ _
  · apply hruled.after_write (.removal task name key revision) key _ _ hfind
      (hkey held hheld hrevision)
    · rw [hreply]
      rfl
    · simp

end World.Ruled

end CertAuthority
