import CertAuthority.Proofs.Office.Calls

/-!
# Where an entry comes from

What stands in a table was written there, and so was what a task has read; whoever wrote it was
bound by what its operation may ask for.  Where entries are only ever added, what was written
stands for ever, and so does what was read.
-/

namespace CertAuthority

open Versioned (firstRevision nextRevision)

/-- An effect that writes to a table creates, changes or removes an entry of it. -/
theorem Effect.write_cases {name : TableName} {e : Effect} (he : e.writesTo name) :
    (∃ key value, e = .table name (.create key value)) ∨
      (∃ key value revision, e = .table name (.update key value revision)) ∨
        ∃ key revision, e = .table name (.delete key revision) := by
  cases e with
  | table written call =>
      cases call with
      | get key => cases he
      | list => cases he
      | create key value =>
          obtain rfl : written = name := of_decide_eq_true he
          exact .inl ⟨key, value, rfl⟩
      | update key value revision =>
          obtain rfl : written = name := of_decide_eq_true he
          exact .inr (.inl ⟨key, value, revision, rfl⟩)
      | delete key revision =>
          obtain rfl : written = name := of_decide_eq_true he
          exact .inr (.inr ⟨key, revision, rfl⟩)
  | now => cases he
  | random count => cases he
  | lock id => cases he
  | unlock id => cases he

/-- An effect that writes to a table only to add an entry of a kind. -/
def Effect.Enters (name : TableName) (own : String → name.Row → Prop) (e : Effect) : Prop :=
  e.writesTo name → ∃ key value, own key value ∧ e = .table name (.create key value)

theorem Effect.enters_of_not_writesTo {name : TableName} {e : Effect}
    (he : e.writesTo name = false) (own : String → name.Row → Prop) : e.Enters name own := by
  intro hwrites
  rw [he] at hwrites
  cases hwrites

/-- What stands under a key that is written once: nothing, or what was entered. -/
inductive WriteOnce {name : TableName} (own : String → name.Row → Prop) (key : String) :
    Option (Versioned name.Row) → List Event → Prop where
  | absent : WriteOnce own key none []
  | present (task : Nat) {value : name.Row} (hown : own key value) :
    WriteOnce own key (some (.fresh value)) [.creation task name key value]

namespace World

variable {w : World} {stores : Stores} {name : TableName} {key : String}

/-- That an entry under a key was written. -/
inductive Written (w : World) (name : TableName) (key : String) : Versioned name.Row → Prop where
  | created {task : Nat} {value : name.Row} (hcreation : .creation task name key value ∈ w.log) :
    Written w name key (.fresh value)
  | changed {task : Nat} {value : name.Row} {revision : Nat}
    (hchange : .change task name key value revision ∈ w.log) :
    Written w name key ⟨value, nextRevision revision⟩

theorem Written.mono {entry : Versioned name.Row} (hwritten : w.Written name key entry)
    {later : World} (hlog : w.log <+: later.log) : later.Written name key entry := by
  cases hwritten with
  | created hcreation => exact .created (hlog.subset hcreation)
  | changed hchange => exact .changed (hlog.subset hchange)

/-- Where entries are only added, what was written is of the kind that is. -/
theorem Written.of_enters {own : String → name.Row → Prop} {entry : Versioned name.Row}
    (hwritten : w.Written name key entry)
    (hlog : ∀ event ∈ w.log, event.effect.Enters name own) : own key entry.value := by
  cases hwritten with
  | created hcreation =>
      obtain ⟨_, _, hown, hcreate⟩ := hlog _ hcreation (decide_eq_true rfl)
      cases hcreate
      exact hown
  | changed hchange =>
      obtain ⟨_, _, -, hcreate⟩ := hlog _ hchange (decide_eq_true rfl)
      cases hcreate

/-- What stands in a table was written. -/
theorem Reachable.written (hreachable : w.Reachable stores) {entry : Versioned name.Row}
    (hfind : w.find? name key = some entry) : w.Written name key entry := by
  induction hreachable with
  | empty => cases hfind
  | @after w chance task e _ ih =>
      have hgrown := w.log_prefix_after stores chance task e
      have hkept (hold : w.find? name key = some entry) := (ih hold).mono hgrown
      have hlast : ⟨task, e, w.reply stores chance e⟩ ∈ (w.after stores chance task e).log :=
        List.mem_append_right _ List.mem_cons_self
      cases hwrites : e.writesTo name with
      | false =>
          apply hkept
          rwa [find?, tables_after_of_not_writesTo w stores chance task hwrites] at hfind
      | true =>
          rcases Effect.write_cases hwrites with
            ⟨created, value, rfl⟩ | ⟨changed, value, revision, rfl⟩ | ⟨removed, revision, rfl⟩
          · rcases w.create_cases stores chance task name created value with
              ⟨e, -, -, htables⟩ | ⟨-, hreply, hfound⟩
            · apply hkept
              rwa [find?, htables] at hfind
            · rw [hfound] at hfind
              split at hfind
              · next hkey =>
                  cases hfind
                  subst hkey
                  rw [hreply] at hlast
                  exact .created hlast
              · exact hkept hfind
          · rcases w.update_cases stores chance task name changed value revision with
              ⟨e, -, -, htables⟩ | ⟨held, -, -, hreply, hfound⟩
            · apply hkept
              rwa [find?, htables] at hfind
            · rw [hfound] at hfind
              split at hfind
              · next hkey =>
                  cases hfind
                  subst hkey
                  rw [hreply] at hlast
                  exact .changed hlast
              · exact hkept hfind
          · rcases w.delete_cases stores chance task name removed revision with
              ⟨e, -, -, htables⟩ | ⟨held, -, -, -, hfound⟩
            · apply hkept
              rwa [find?, htables] at hfind
            · rw [hfound] at hfind
              split at hfind
              · cases hfind
              · exact hkept hfind

/-- What a task has read in a table was written. -/
theorem Reachable.written_of_read (hreachable : w.Reachable stores) {task : Nat}
    {entry : Versioned name.Row}
    (hread : ⟨task, .table name (.get key), .ok (some entry)⟩ ∈ w.log) :
    w.Written name key entry := by
  induction hreachable with
  | empty => cases hread
  | @after w chance other e hbefore ih =>
      have hgrown := w.log_prefix_after stores chance other e
      rcases List.mem_append.mp hread with hold | hnew
      · exact (ih hold).mono hgrown
      · injection List.mem_singleton.mp hnew with _ heffect hanswer
        subst heffect
        have hreply := eq_of_heq hanswer
        rcases w.reply_get stores chance name key with ⟨e, -, herror⟩ | hok
        · rw [herror] at hreply
          cases hreply
        · rw [hok] at hreply
          exact (hbefore.written (Except.ok.inj hreply).symm).mono hgrown

variable {own : String → name.Row → Prop}

/-- Where entries are only added, each key is written once. -/
theorem Ruled.enter (hruled : w.Ruled name (WriteOnce own)) (stores : Stores) (chance : Chance)
    (task : Nat) {e : Effect} (he : e.Enters name own) :
    (w.after stores chance task e).Ruled name (WriteOnce own) := by
  cases hwrites : e.writesTo name with
  | false => exact hruled.after_other stores chance task hwrites
  | true =>
      obtain ⟨key, value, hown, rfl⟩ := he hwrites
      apply hruled.after_create
      intro hnew
      have hkey := hruled key
      rw [hnew] at hkey
      generalize w.writes name key = writes at hkey ⊢
      cases hkey with
      | absent => exact .present task hown

/-- What was entered stands. -/
theorem Ruled.find_of_creation (hruled : w.Ruled name (WriteOnce own)) {task : Nat}
    {value : name.Row} (hcreation : .creation task name key value ∈ w.log) :
    w.find? name key = some (.fresh value) := by
  have hkey := hruled key
  have hmem : .creation task name key value ∈ w.writes name key :=
    List.mem_filter.mpr ⟨hcreation, by simp⟩
  generalize w.writes name key = writes at hkey hmem
  generalize w.find? name key = held? at hkey ⊢
  cases hkey with
  | absent => cases hmem
  | present other hown =>
      cases List.mem_singleton.mp hmem
      rfl

/-- What stands was entered, and is of the kind. -/
theorem Ruled.creation_of_find (hruled : w.Ruled name (WriteOnce own))
    {entry : Versioned name.Row} (hfind : w.find? name key = some entry) :
    own key entry.value ∧ entry = .fresh entry.value ∧
      ∃ task, .creation task name key entry.value ∈ w.log := by
  have hkey := hruled key
  rw [hfind] at hkey
  generalize hwrites : w.writes name key = writes at hkey
  cases hkey with
  | present task hown =>
      refine ⟨hown, rfl, task, mem_log_of_mem_writes (?_ : _ ∈ w.writes name key)⟩
      rw [hwrites]
      exact List.mem_cons_self

/-- Nobody changes what is written once, so that what was written stands. -/
theorem Ruled.find_of_written (hruled : w.Ruled name (WriteOnce own))
    {entry : Versioned name.Row} (hwritten : w.Written name key entry) :
    w.find? name key = some entry := by
  cases hwritten with
  | created hcreation => exact hruled.find_of_creation hcreation
  | @changed task value revision hchange =>
      have hkey := hruled key
      have hmem : .change task name key value revision ∈ w.writes name key :=
        List.mem_filter.mpr ⟨hchange, by simp⟩
      generalize w.writes name key = writes at hkey hmem
      generalize w.find? name key = held? at hkey ⊢
      cases hkey with
      | absent => cases hmem
      | present other hown => cases List.mem_singleton.mp hmem

/-- An entry is there for ever. -/
theorem Ruled.stays (hruled : w.Ruled name (WriteOnce own)) {later : World}
    (hlater : later.Ruled name (WriteOnce own)) (hlog : w.log <+: later.log)
    {entry : Versioned name.Row} (hfind : w.find? name key = some entry) :
    later.find? name key = some entry := by
  obtain ⟨-, hfresh, task, hcreation⟩ := hruled.creation_of_find hfind
  rw [hfresh]
  exact hlater.find_of_creation (hlog.subset hcreation)

end World

namespace Office

variable {I : Interface} {stores : Stores}

/-- Every effect was allowed to the operation of its task. -/
theorem allowed_of_mem {allowed : I.Operation → Effect → Prop}
    (honly : ∀ operation, (I.procedure operation).Only (allowed operation))
    {moves : List (Move I)} {event : Event} (hevent : event ∈ (run stores moves).world.log) :
    ∃ operation rest, (run stores moves).tasks[event.task]? = some ⟨operation, rest⟩ ∧
      allowed operation event.effect := by
  have hkeeps : I.Keeps (fun _ => True) stores fun operation _ past _ =>
      ∀ event ∈ past, allowed operation event.effect :=
    Interface.keeps_of_only trivial honly fun _ _ _ _ _ _ _ => trivial
  have habides := abides_run hkeeps moves
  have hbound := habides.numbered event hevent
  have htask := List.getElem?_eq_getElem hbound
  generalize (run stores moves).tasks[event.task] = task at htask
  obtain ⟨operation, rest⟩ := task
  have hpromise := (habides.tasks event.task operation rest htask).promised
  exact ⟨operation, rest, htask, hpromise event (World.mem_past_iff.mpr ⟨hevent, rfl⟩)⟩

/-- What a task has read that was started later stood in the table when it was read. -/
theorem read_later {s : Office I} (hnumbered : ∀ event ∈ s.world.log, event.task < s.tasks.length)
    {moves : List (Move I)} {i : Nat} (hlater : s.tasks.length ≤ i) {name : TableName}
    {key : String} {found : Option (Versioned name.Row)}
    (hread : ⟨i, .table name (.get key), .ok found⟩ ∈ (s.after stores moves).world.log) :
    ∃ before, before <+: moves ∧ (s.after stores before).world.find? name key = found ∧
      (s.after stores before).world.log ++ [⟨i, .table name (.get key), .ok found⟩] <+:
        (s.after stores moves).world.log := by
  rcases mem_log_after hread with hold | ⟨before, chance, hbefore, hreply, hlog⟩
  · exact absurd (hnumbered _ hold) (Nat.not_lt.mpr hlater)
  · refine ⟨before, hbefore, ?_, hlog⟩
    change Except.ok found = World.reply _ stores chance (.table name (.get key)) at hreply
    rcases World.reply_get _ stores chance name key with ⟨e, -, herror⟩ | hok
    · rw [herror] at hreply
      cases hreply
    · rw [hok] at hreply
      exact (Except.ok.inj hreply).symm

end Office

end CertAuthority
