import CertAuthority.Proofs.Office.Origin
import Mathlib.Algebra.BigOperators.Group.Finset.Piecewise

/-!
# An office that opens with full tables

An office may open with anything in its tables.  What its operations keep from there on is shown as
for an office that opens with none: the world keeps a law, and each task has its standing in the
world, by what it has done and has still to do.  A task that has an effect must leave the law in
force, come to a standing itself, and leave the others theirs.
-/

namespace CertAuthority

namespace Event

/-- Whether a table accepted a new entry. -/
def enters (name : TableName) : Event → Bool
  | ⟨_, .table written (.create _ _), .ok _⟩ => written = name
  | _ => false

/-- Whether a table gave up an entry. -/
def removes (name : TableName) : Event → Bool
  | ⟨_, .table written (.delete _ _), .ok _⟩ => written = name
  | _ => false

variable {name : TableName}

/-- What is not accepted as a write of a table leaves it as many entries as it had. -/
theorem idle_of_not_writesAt {event : Event}
    (hevent : ∀ key, event.writesAt name key = false) :
    event.enters name = false ∧ event.removes name = false := by
  obtain ⟨task, e, reply⟩ := event
  cases e with
  | table written call =>
      have hwrites := hevent call.key
      cases call with
      | create key value =>
          cases reply with
          | error e => exact ⟨rfl, rfl⟩
          | ok revision => exact ⟨by simpa [writesAt, isWrite, enters] using hwrites, rfl⟩
      | delete key revision =>
          cases reply with
          | error e => exact ⟨rfl, rfl⟩
          | ok _ => exact ⟨rfl, by simpa [writesAt, isWrite, removes] using hwrites⟩
      | get key => exact ⟨rfl, rfl⟩
      | list => exact ⟨rfl, rfl⟩
      | update key value revision => exact ⟨rfl, rfl⟩
  | now => exact ⟨rfl, rfl⟩
  | random count => exact ⟨rfl, rfl⟩
  | lock id => exact ⟨rfl, rfl⟩
  | unlock id => exact ⟨rfl, rfl⟩

theorem idle_of_refused (task : Nat) {written : TableName} (call : TableCall written.Row)
    (e : CaError) : (Event.mk task (.table written call) (.error e)).enters name = false ∧
      (Event.mk task (.table written call) (.error e)).removes name = false :=
  idle_of_not_writesAt fun _ => not_writesAt_of_not_isWrite (not_isWrite_of_refused task call e)

theorem idle_of_not_writesTo {e : Effect} (he : e.writesTo name = false) (task : Nat)
    (reply : e.Reply) : (Event.mk task e reply).enters name = false ∧
      (Event.mk task e reply).removes name = false :=
  idle_of_not_writesAt fun _ => not_writesAt_of_not_writesTo he task reply

end Event

namespace World

variable {w : World} {stores : Stores} {chance : Chance} {task : Nat} {e : Effect}
  {name : TableName} {opened : Nat}

theorem distinct_after (hdistinct : (w.tables name).entries.Distinct) (stores : Stores)
    (chance : Chance) (task : Nat) (e : Effect) :
    ((w.after stores chance task e).tables name).entries.Distinct := by
  cases hwrites : e.writesTo name with
  | false => rwa [tables_after_of_not_writesTo w stores chance task hwrites]
  | true =>
      obtain ⟨call, rfl⟩ : ∃ call, e = .table name call := by
        rcases Effect.write_cases hwrites with ⟨key, value, rfl⟩ | ⟨key, value, revision, rfl⟩ |
          ⟨key, revision, rfl⟩
        all_goals exact ⟨_, rfl⟩
      unfold after
      rcases respond_table_cases stores chance w.tables name call with ⟨fault, h⟩ | h
      · rwa [h]
      · rw [h]
        simpa using MemoryTable.distinct_step hdistinct call

/-- What vanishes from a table is removed at its revision. -/
theorem removed_of_vanished {key : String} {held : Versioned name.Row}
    (hheld : w.find? name key = some held)
    (hgone : (w.after stores chance task e).find? name key = none) :
    e = .table name (.delete key held.revision) := by
  cases hwrites : e.writesTo name with
  | false =>
      rw [find?, tables_after_of_not_writesTo w stores chance task hwrites] at hgone
      cases hheld.symm.trans hgone
  | true =>
      rcases Effect.write_cases hwrites with ⟨created, value, rfl⟩ |
        ⟨changed, value, revision, rfl⟩ | ⟨removed, revision, rfl⟩
      · rcases w.create_cases stores chance task name created value with
          ⟨error, -, -, htables⟩ | ⟨-, -, hfind⟩
        · rw [find?, htables] at hgone
          cases hheld.symm.trans hgone
        · rw [hfind] at hgone
          split at hgone
          · cases hgone
          · cases hheld.symm.trans hgone
      · rcases w.update_cases stores chance task name changed value revision with
          ⟨error, -, -, htables⟩ | ⟨found, -, -, -, hfind⟩
        · rw [find?, htables] at hgone
          cases hheld.symm.trans hgone
        · rw [hfind] at hgone
          split at hgone
          · cases hgone
          · cases hheld.symm.trans hgone
      · rcases w.delete_cases stores chance task name removed revision with
          ⟨error, -, -, htables⟩ | ⟨found, hfound, hrevision, -, hfind⟩
        · rw [find?, htables] at hgone
          cases hheld.symm.trans hgone
        · rw [hfind] at hgone
          split at hgone
          · next hkey =>
              subst hkey
              cases hheld.symm.trans hfound
              rw [hrevision]
          · cases hheld.symm.trans hgone

/-- That a table holds as many entries as it opened with and has accepted since, less those that it
gave up. -/
structure Balanced (name : TableName) (opened : Nat) (w : World) : Prop where
  distinct : (w.tables name).entries.Distinct
  balance : (w.tables name).entries.length + w.log.countP (·.removes name) =
    opened + w.log.countP (·.enters name)

/-- The balance is kept if the number of entries follows the event. -/
theorem Balanced.after_event (hbalanced : w.Balanced name opened) {reply : e.Reply}
    (hreply : w.reply stores chance e = reply)
    (hlength : ((w.after stores chance task e).tables name).entries.length +
        (if (Event.mk task e reply).removes name then 1 else 0) =
      (w.tables name).entries.length +
        if (Event.mk task e reply).enters name then 1 else 0) :
    (w.after stores chance task e).Balanced name opened := by
  refine ⟨distinct_after hbalanced.distinct stores chance task e, ?_⟩
  have hlog : (w.after stores chance task e).log = w.log ++ [⟨task, e, reply⟩] := by
    rw [← hreply]
    rfl
  rw [hlog, List.countP_append, List.countP_append, List.countP_singleton, List.countP_singleton]
  have hbefore := hbalanced.balance
  omega

theorem Balanced.after_idle (hbalanced : w.Balanced name opened) {reply : e.Reply}
    (hreply : w.reply stores chance e = reply)
    (htables : (w.after stores chance task e).tables name = w.tables name)
    (hidle : (Event.mk task e reply).enters name = false ∧
      (Event.mk task e reply).removes name = false) :
    (w.after stores chance task e).Balanced name opened := by
  apply hbalanced.after_event hreply
  rw [htables, hidle.1, hidle.2]

theorem Balanced.after_refused (hbalanced : w.Balanced name opened) {call : TableCall name.Row}
    {error : CaError} (hreply : w.reply stores chance (.table name call) = .error error) :
    (w.after stores chance task (.table name call)).Balanced name opened :=
  hbalanced.after_idle hreply (by rw [(tables_of_refused task hreply).2])
    (Event.idle_of_refused task call error)

/-- Every effect keeps the balance. -/
theorem Balanced.after (hbalanced : w.Balanced name opened) (stores : Stores) (chance : Chance)
    (task : Nat) (e : Effect) : (w.after stores chance task e).Balanced name opened := by
  cases hwrites : e.writesTo name with
  | false =>
      exact hbalanced.after_idle rfl (tables_after_of_not_writesTo w stores chance task hwrites)
        (Event.idle_of_not_writesTo hwrites task _)
  | true =>
      rcases Effect.write_cases hwrites with ⟨key, value, rfl⟩ | ⟨key, value, revision, rfl⟩ |
        ⟨key, revision, rfl⟩
      · cases hreply : w.reply stores chance (.table name (.create key value)) with
        | error error => exact hbalanced.after_refused hreply
        | ok revision =>
            apply hbalanced.after_event hreply
            rw [tables_of_created task hreply]
            simp [Event.enters, Event.removes]
      · cases hreply : w.reply stores chance (.table name (.update key value revision)) with
        | error error => exact hbalanced.after_refused hreply
        | ok next =>
            obtain ⟨held, hheld, rfl⟩ := current_of_changed hreply
            apply hbalanced.after_event hreply
            rw [tables_of_changed task hheld hreply]
            simp [Event.enters, Event.removes, Entries.length_replace]
      · cases hreply : w.reply stores chance (.table name (.delete key revision)) with
        | error error => exact hbalanced.after_refused hreply
        | ok _ =>
            apply hbalanced.after_event hreply
            obtain ⟨held, hheld, -, htables⟩ := tables_of_removed task hreply
            rw [htables]
            simpa [Event.enters, Event.removes] using
              Entries.length_erase hbalanced.distinct hheld

end World

namespace Office

variable {I : Interface} {stores : Stores} {s : Office I}

/-- Nothing was asked for yet, and the tables are as given. -/
def opening (tables : MemoryTables) : Office I := ⟨⟨tables, []⟩, []⟩

/-- What a move does: a task is begun, has an effect, begins its loop anew, or nothing happens. -/
theorem act_cases (stores : Stores) (s : Office I) (move : Move I) :
    (∃ operation, s.act stores move =
        ⟨s.world, s.tasks ++ [⟨operation, I.procedure operation⟩]⟩) ∨
      (∃ i operation e next chance, move = .advance i chance ∧
        s.tasks[i]? = some ⟨operation, .call e next⟩ ∧
        s.act stores move = ⟨s.world.after stores chance i e,
          s.tasks.set i ⟨operation, next (s.world.reply stores chance e)⟩⟩) ∨
      (∃ i operation, s.tasks[i]? = some ⟨operation, .fail .unfinished⟩ ∧
        s.act stores move = ⟨s.world, s.tasks.set i ⟨operation, I.procedure operation⟩⟩) ∨
      s.act stores move = s := by
  cases move with
  | start operation => exact .inl ⟨operation, rfl⟩
  | advance i chance =>
      cases htask : s.tasks[i]? with
      | none => exact .inr (.inr (.inr (by simp only [act, advance, htask])))
      | some task =>
          obtain ⟨operation, rest⟩ := task
          by_cases hended : rest.outcome?.isSome
          · exact .inr (.inr (.inr (advance_ended htask hended chance)))
          cases rest with
          | done a => exact absurd rfl hended
          | call e next =>
              exact .inr (.inl ⟨i, operation, e, next, chance, rfl, htask,
                advance_call stores htask chance⟩)
          | fail f =>
              cases f with
              | error e => exact absurd rfl hended
              | calendar => exact absurd rfl hended
              | unfinished =>
                  exact .inr (.inr (.inl ⟨i, operation, htask, advance_unfinished htask chance⟩))

/-- Only tasks that were started have had effects. -/
def Numbered (s : Office I) : Prop :=
  ∀ event ∈ s.world.log, event.task < s.tasks.length

theorem numbered_opening (tables : MemoryTables) : (opening tables : Office I).Numbered :=
  List.forall_mem_nil _

theorem Numbered.act (hnumbered : s.Numbered) (stores : Stores) (move : Move I) :
    (s.act stores move).Numbered := by
  rcases s.act_cases stores move with ⟨operation, hact⟩ |
    ⟨i, operation, e, next, chance, -, htask, hact⟩ | ⟨i, operation, htask, hact⟩ | hact
  · rw [hact]
    intro event hevent
    rw [List.length_append]
    exact Nat.lt_add_right _ (hnumbered event hevent)
  · rw [hact]
    intro event hevent
    rw [List.length_set]
    rcases List.mem_append.mp hevent with hold | hnew
    · exact hnumbered event hold
    · rw [List.mem_singleton.mp hnew]
      exact (List.getElem?_eq_some_iff.mp htask).1
  · rw [hact]
    intro event hevent
    rw [List.length_set]
    exact hnumbered event hevent
  · rw [hact]
    exact hnumbered

theorem Numbered.after (hnumbered : s.Numbered) (stores : Stores) (moves : List (Move I)) :
    (s.after stores moves).Numbered := by
  induction moves generalizing s with
  | nil => exact hnumbered
  | cons move moves ih => exact ih (hnumbered.act stores move)

/-- A task that is about to be started has had no effects. -/
theorem Numbered.past_of_new (hnumbered : s.Numbered) : s.world.past s.tasks.length = [] := by
  refine List.filter_eq_nil_iff.mpr fun event hevent => ?_
  have hlt := hnumbered event hevent
  simp only [decide_eq_true_eq]
  omega

/-- What all did is what each did, taken together. -/
theorem Numbered.sum_countP_past (hnumbered : s.Numbered) (counted : Event → Bool) :
    ∑ i ∈ Finset.range s.tasks.length, (s.world.past i).countP counted =
      s.world.log.countP counted := by
  unfold Numbered at hnumbered
  unfold World.past
  generalize s.world.log = log at hnumbered ⊢
  induction log with
  | nil => simp
  | cons event log ih =>
      have hothers := ih fun event hevent => hnumbered event (List.mem_cons_of_mem _ hevent)
      have hown := hnumbered event List.mem_cons_self
      have hsplit (i : Nat) : ((event :: log).filter (·.task = i)).countP counted =
          (log.filter (·.task = i)).countP counted +
            if i = event.task then (if counted event then 1 else 0) else 0 := by
        by_cases hi : i = event.task
        · simp [hi, List.countP_cons]
        · simp [hi, Ne.symm hi]
      calc ∑ i ∈ Finset.range s.tasks.length, ((event :: log).filter (·.task = i)).countP counted
        _ = ∑ i ∈ Finset.range s.tasks.length, (log.filter (·.task = i)).countP counted +
              ∑ i ∈ Finset.range s.tasks.length,
                if i = event.task then (if counted event then 1 else 0) else 0 := by
            simp only [hsplit, Finset.sum_add_distrib]
        _ = log.countP counted + if counted event then 1 else 0 := by
            rw [hothers, Finset.sum_ite_eq', if_pos (Finset.mem_range.mpr hown)]
        _ = (event :: log).countP counted := List.countP_cons.symm

/-- From the opening on the entries of a table are in balance. -/
theorem balanced_after {tables : MemoryTables} {name : TableName}
    (hdistinct : (tables name).entries.Distinct) (moves : List (Move I)) :
    ((opening tables : Office I).after stores moves).world.Balanced name
      (tables name).entries.length := by
  have hopening : (opening tables : Office I).world.Balanced name (tables name).entries.length :=
    ⟨hdistinct, rfl⟩
  generalize (opening tables : Office I) = s at hopening ⊢
  induction moves generalizing s with
  | nil => exact hopening
  | cons move moves ih =>
      apply ih
      rcases s.act_cases stores move with ⟨operation, hact⟩ |
        ⟨i, operation, e, next, chance, -, -, hact⟩ | ⟨i, operation, -, hact⟩ | hact
      · rw [hact]
        exact hopening
      · rw [hact]
        exact hopening.after stores chance i e
      · rw [hact]
        exact hopening
      · rw [hact]
        exact hopening

end Office

/-- What may be said of a task in a world: of its operation, its number, and what it has still to
do. -/
abbrev Interface.Standing (I : Interface) :=
  World → (operation : I.Operation) → (task : Nat) → Procedure (I.Result operation) → Prop

/-- That operations keep a law and their standing, as long as the log is of a kind. -/
structure Interface.Maintains (I : Interface) (stores : Stores) (kind : List Event → Prop)
    (law : World → Prop) (stands : I.Standing) : Prop where
  /-- What has come to a log of the kind was one all the time. -/
  earlier : ∀ log event, kind (log ++ [event]) → kind log
  start : ∀ operation task (w : World), law w → w.past task = [] →
    stands w operation task (I.procedure operation)
  again : ∀ operation task (w : World), law w → stands w operation task (.fail .unfinished) →
    stands w operation task (I.procedure operation)
  call : ∀ operation task e next (w : World) chance, law w →
    stands w operation task (.call e next) → kind (w.after stores chance task e).log →
      law (w.after stores chance task e) ∧
        stands (w.after stores chance task e) operation task (next (w.reply stores chance e)) ∧
        ∀ other others rest, other ≠ task → stands w others other rest →
          stands (w.after stores chance task e) others other rest

theorem Interface.Maintains.kind_earlier {I : Interface} {stores : Stores}
    {kind : List Event → Prop} {law : World → Prop} {stands : I.Standing}
    (hmaintains : I.Maintains stores kind law stands) {log later : List Event}
    (hlog : log <+: later) (hkind : kind later) : kind log := by
  obtain ⟨more, rfl⟩ := hlog
  induction more using List.reverseRecOn with
  | nil => rwa [List.append_nil] at hkind
  | append_singleton more event ih =>
      rw [← List.append_assoc] at hkind
      exact ih (hmaintains.earlier _ _ hkind)

namespace Office

variable {I : Interface} {stores : Stores} {s : Office I} {kind : List Event → Prop}
  {law : World → Prop} {stands : I.Standing}

/-- The law is in force, and each task stands. -/
structure Upholds (law : World → Prop) (stands : I.Standing) (s : Office I) : Prop where
  lawful : law s.world
  numbered : s.Numbered
  tasks : ∀ (i : Nat) (operation : I.Operation) (rest : Procedure (I.Result operation)),
    s.tasks[i]? = some ⟨operation, rest⟩ → stands s.world operation i rest

theorem upholds_opening {tables : MemoryTables} (hlaw : law ⟨tables, []⟩) :
    (opening tables : Office I).Upholds law stands where
  lawful := hlaw
  numbered := numbered_opening tables
  tasks := by simp [opening]

theorem Upholds.act (hmaintains : I.Maintains stores kind law stands)
    (hupholds : s.Upholds law stands) {move : Move I}
    (hkind : kind (s.act stores move).world.log) : (s.act stores move).Upholds law stands := by
  have hnumbered := hupholds.numbered.act stores move
  rcases s.act_cases stores move with ⟨operation, hact⟩ |
    ⟨i, operation, e, next, chance, -, htask, hact⟩ | ⟨i, operation, htask, hact⟩ | hact
  · rw [hact] at hnumbered ⊢
    refine ⟨hupholds.lawful, hnumbered, fun j other rest hfound => ?_⟩
    rcases found_of_append hfound with hold | ⟨rfl, hnew⟩
    · exact hupholds.tasks j other rest hold
    · cases hnew
      exact hmaintains.start _ _ _ hupholds.lawful hupholds.numbered.past_of_new
  · rw [hact] at hnumbered hkind ⊢
    obtain ⟨hlaw, hown, hothers⟩ := hmaintains.call operation i e next s.world chance
      hupholds.lawful (hupholds.tasks i _ _ htask) hkind
    refine ⟨hlaw, hnumbered, fun j other rest hfound => ?_⟩
    rcases found_of_set hfound with ⟨rfl, hself⟩ | ⟨hj, hold⟩
    · cases hself
      exact hown
    · exact hothers j other rest hj (hupholds.tasks j other rest hold)
  · rw [hact] at hnumbered ⊢
    refine ⟨hupholds.lawful, hnumbered, fun j other rest hfound => ?_⟩
    rcases found_of_set hfound with ⟨rfl, hself⟩ | ⟨-, hold⟩
    · cases hself
      exact hmaintains.again _ _ _ hupholds.lawful (hupholds.tasks _ _ _ htask)
    · exact hupholds.tasks j other rest hold
  · rw [hact]
    exact hupholds

/-- What is maintained is upheld after all moves after which the log is still of the kind. -/
theorem Upholds.after (hmaintains : I.Maintains stores kind law stands)
    (hupholds : s.Upholds law stands) {moves : List (Move I)}
    (hkind : kind (s.after stores moves).world.log) :
    (s.after stores moves).Upholds law stands := by
  induction moves generalizing s with
  | nil => exact hupholds
  | cons move moves ih =>
      have hnext : kind (s.act stores move).world.log :=
        hmaintains.kind_earlier (log_prefix_after stores _ moves) hkind
      exact ih (hupholds.act hmaintains hnext) hkind

/-- The effects of a task are left alone by the moves of others. -/
theorem past_act {i : Nat} {move : Move I} (hby : move.isBy i = false) :
    (s.act stores move).world.past i = s.world.past i := by
  cases move with
  | start operation => rfl
  | advance j chance =>
      have hj : j ≠ i := of_decide_eq_false hby
      rcases s.act_cases stores (.advance j chance) with ⟨operation, hact⟩ |
        ⟨_, operation, e, next, _, hmove, htask, hact⟩ | ⟨_, operation, htask, hact⟩ | hact
      · rw [hact]
      · cases hmove
        rw [hact]
        exact World.past_after_of_ne _ _ _ hj _
      · rw [hact]
      · rw [hact]

/-- A measure of what a task has done and has still to do that grows with each move of the task
until it has ended, and stays below a limit. -/
structure Pace (stores : Stores) (stands : I.Standing) (operation : I.Operation) (i : Nat)
    (pace : List Event → Procedure (I.Result operation) → Nat) (limit : Nat) : Prop where
  call : ∀ (w : World) e next chance, stands w operation i (.call e next) →
    stands (w.after stores chance i e) operation i (next (w.reply stores chance e)) →
      pace (w.past i) (.call e next) <
        pace ((w.after stores chance i e).past i) (next (w.reply stores chance e))
  again : ∀ w : World, stands w operation i (.fail .unfinished) →
    pace (w.past i) (.fail .unfinished) < pace (w.past i) (I.procedure operation)
  limit : ∀ (w : World) rest, stands w operation i rest → rest.outcome? = none →
    pace (w.past i) rest < limit

section Pace

variable {operation : I.Operation} {i : Nat} {rest : Procedure (I.Result operation)}
  {pace : List Event → Procedure (I.Result operation) → Nat} {limit : Nat}

theorem Pace.act (hpace : Pace stores stands operation i pace limit)
    (hupholds : s.Upholds law stands) (htask : s.tasks[i]? = some ⟨operation, rest⟩)
    (hgoing : rest.outcome? = none) {move : Move I}
    (hnext : (s.act stores move).Upholds law stands) :
    ∃ later, (s.act stores move).tasks[i]? = some ⟨operation, later⟩ ∧
      pace (s.world.past i) rest + (if move.isBy i then 1 else 0) ≤
        pace ((s.act stores move).world.past i) later := by
  cases hby : move.isBy i with
  | false =>
      obtain ⟨later, hlater, hkept⟩ := task_act stores htask move
      obtain rfl := hkept (.inl hby)
      exact ⟨later, hlater, by rw [past_act hby]; exact Nat.le_refl _⟩
  | true =>
      obtain ⟨chance, rfl⟩ : ∃ chance, move = .advance i chance := by
        cases move with
        | start other => cases hby
        | advance j chance =>
            obtain rfl : j = i := of_decide_eq_true hby
            exact ⟨chance, rfl⟩
      have hstands := hupholds.tasks i operation rest htask
      cases rest with
      | done a => cases hgoing
      | call e next =>
          have hact := advance_call stores htask chance
          rw [act] at hnext ⊢
          rw [hact] at hnext ⊢
          have hlater := found_set_self htask ⟨operation, next (s.world.reply stores chance e)⟩
          exact ⟨_, hlater,
            hpace.call s.world e next chance hstands (hnext.tasks i operation _ hlater)⟩
      | fail f =>
          cases f with
          | error e => cases hgoing
          | calendar => cases hgoing
          | unfinished =>
              rw [act, advance_unfinished htask]
              exact ⟨_, found_set_self htask _, hpace.again s.world hstands⟩

/-- A task has ended once it has had as many moves as its measure lacks to the limit. -/
theorem Pace.ended (hpace : Pace stores stands operation i pace limit)
    (hmaintains : I.Maintains stores kind law stands) (hupholds : s.Upholds law stands)
    (htask : s.tasks[i]? = some ⟨operation, rest⟩) {moves : List (Move I)}
    (hkind : kind (s.after stores moves).world.log)
    (hcount : limit ≤ pace (s.world.past i) rest + moves.countP (Move.isBy i)) :
    ∃ outcome, (s.after stores moves).Ended i operation outcome := by
  induction moves generalizing s rest with
  | nil =>
      cases hgoing : rest.outcome? with
      | some outcome => exact ⟨outcome, rest, htask, hgoing⟩
      | none =>
          have hlt := hpace.limit s.world rest (hupholds.tasks i operation rest htask) hgoing
          rw [List.countP_nil] at hcount
          omega
  | cons move moves ih =>
      cases hgoing : rest.outcome? with
      | some outcome =>
          have hended : s.Ended i operation outcome := ⟨rest, htask, hgoing⟩
          exact ⟨outcome, hended.after stores (move :: moves)⟩
      | none =>
          have hnext : (s.act stores move).Upholds law stands :=
            hupholds.act hmaintains
              (hmaintains.kind_earlier (log_prefix_after stores _ moves) hkind)
          obtain ⟨later, hlater, hgrown⟩ := hpace.act hupholds htask hgoing hnext
          apply ih hnext hlater hkind
          rw [List.countP_cons] at hcount
          omega

end Pace

end Office

end CertAuthority
