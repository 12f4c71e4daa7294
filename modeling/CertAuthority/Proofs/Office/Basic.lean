import CertAuthority.Procedure
import CertAuthority.Proofs.Store.Entries
import Mathlib.Logic.Function.Basic

/-!
# Operations at the same time

In an office many operations work on one set of tables at the same time.  Each of them is a
procedure, and the office goes on move by move: a move starts another operation, or lets one that
is under way have its next effect.  Moves may come in any order, so that whatever holds after all
lists of moves holds of every interleaving.

Chance decides what the clock shows, which bytes are drawn and whether a call to a table fails.
A lock is granted whenever it is asked for: operations that come through different services do
not see each other's locks.
-/

namespace CertAuthority

/-- The tables, all of them in memory. -/
abbrev MemoryTables := (name : TableName) → MemoryTable name.Row

/-- Whether a call to a table may fail without a reason that lies in the table. -/
inductive Stores where
  | reliable
  | failing
  deriving Repr, DecidableEq

/-- Whether an error may come from a table. -/
def CaError.isOfTable : CaError → Bool
  | .storage _ => true
  | .conflict _ => true
  | .internal _ => true
  | _ => false

/-- How a call to a table may fail by itself. -/
structure TableFault where
  error : CaError
  ofTable : error.isOfTable

/-- What one move leaves to chance. -/
structure Chance where
  time : Instant
  byte : Nat → UInt8
  /-- How a call to a table fails, if it does. -/
  fault : Option TableFault

/-- An effect with the task that had it and the reply that it got. -/
structure Event where
  task : Nat
  effect : Effect
  reply : effect.Reply

namespace Event

/-- The creation of an entry. -/
def creation (task : Nat) (name : TableName) (key : String) (value : name.Row) : Event :=
  ⟨task, .table name (.create key value), .ok Versioned.firstRevision⟩

/-- The change of an entry at a revision. -/
def change (task : Nat) (name : TableName) (key : String) (value : name.Row) (revision : Nat) :
    Event :=
  ⟨task, .table name (.update key value revision), .ok (Versioned.nextRevision revision)⟩

/-- Whether a table accepted a write, under any key. -/
def isWrite : Event → Bool
  | ⟨_, .table _ (.create _ _), .ok _⟩ => true
  | ⟨_, .table _ (.update _ _ _), .ok _⟩ => true
  | ⟨_, .table _ (.delete _ _), .ok _⟩ => true
  | _ => false

/-- Whether a table accepted a write under a key. -/
def writesAt (name : TableName) (key : String) (event : Event) : Bool :=
  event.isWrite &&
    match event.effect with
    | .table written call => written = name ∧ call.key = key
    | _ => false

/-- Whether a table accepted the change of an entry. -/
def isChange : Event → Bool
  | ⟨_, .table _ (.update _ _ _), .ok _⟩ => true
  | _ => false

end Event

structure World where
  tables : MemoryTables
  /-- All effects so far, the earliest first. -/
  log : List Event

namespace World

/-- Empty tables, before any effect. -/
def empty : World := ⟨fun _ => .empty, []⟩

def find? (w : World) (name : TableName) (key : String) : Option (Versioned name.Row) :=
  (w.tables name).find? key

/-- The effects of one task. -/
def past (w : World) (task : Nat) : List Event :=
  w.log.filter (·.task = task)

/-- The writes that a table accepted under a key. -/
def writes (w : World) (name : TableName) (key : String) : List Event :=
  w.log.filter (·.writesAt name key)

/-- What an effect is replied, and the tables after it. -/
def respond (stores : Stores) (chance : Chance) (tables : MemoryTables) :
    (e : Effect) → e.Reply × MemoryTables
  | .now => (chance.time, tables)
  | .random count => ((List.range count).map chance.byte, tables)
  | .table name call =>
    match stores, chance.fault with
    | .failing, some fault => (call.failed fault.error, tables)
    | _, _ =>
      (((tables name).step call).1, Function.update tables name ((tables name).step call).2)
  | .lock _ => ((), tables)
  | .unlock _ => ((), tables)

def reply (w : World) (stores : Stores) (chance : Chance) (e : Effect) : e.Reply :=
  (respond stores chance w.tables e).1

/-- The world after an effect of a task. -/
def after (w : World) (stores : Stores) (chance : Chance) (task : Nat) (e : Effect) : World :=
  ⟨(respond stores chance w.tables e).2, w.log ++ [⟨task, e, w.reply stores chance e⟩]⟩

/-- The worlds that effects may lead to. -/
inductive Reachable (stores : Stores) : World → Prop where
  | empty : Reachable stores .empty
  | after {w : World} (chance : Chance) (task : Nat) (e : Effect) :
    Reachable stores w → Reachable stores (w.after stores chance task e)

end World

/-- What may be asked for, and how it is done. -/
structure Interface where
  Operation : Type
  Result : Operation → Type
  procedure : (operation : Operation) → Procedure (Result operation)

/-- An operation with what it has still to do. -/
structure Task (I : Interface) where
  operation : I.Operation
  rest : Procedure (I.Result operation)

namespace Procedure

variable {α β : Type}

/-- How a procedure has ended.  One whose rounds are used up has not: it will be granted more. -/
def outcome? : Procedure α → Option (Except Failure α)
  | .done a => some (.ok a)
  | .fail .unfinished => none
  | .fail f => some (.error f)
  | .call _ _ => none

theorem eq_done_of_outcome? {p : Procedure α} {a : α} (hp : p.outcome? = some (.ok a)) :
    p = .done a := by
  cases p with
  | done b =>
      cases hp
      rfl
  | fail f => cases f <;> cases hp
  | call e next => cases hp

theorem eq_fail_of_outcome? {p : Procedure α} {f : Failure} (hp : p.outcome? = some (.error f)) :
    p = .fail f := by
  cases p with
  | done a => cases hp
  | fail g => cases g <;> cases hp <;> rfl
  | call e next => cases hp

end Procedure

inductive Move (I : Interface) where
  | start (operation : I.Operation)
  | advance (task : Nat) (chance : Chance)

/-- Whether a move lets a given task go on. -/
def Move.isBy {I : Interface} (task : Nat) : Move I → Bool
  | .start _ => false
  | .advance other _ => other = task

/-- Whether a move starts an operation. -/
def Move.isStart {I : Interface} : Move I → Bool
  | .start _ => true
  | .advance _ _ => false

structure Office (I : Interface) where
  world : World
  tasks : List (Task I)

namespace Office

variable {I : Interface}

/-- Nothing was asked for yet, and all tables are empty. -/
def initial : Office I := ⟨.empty, []⟩

/-- Lets a task have its next effect.  A task whose rounds are used up begins its loop anew. -/
def advance (stores : Stores) (s : Office I) (i : Nat) (chance : Chance) : Office I :=
  match s.tasks[i]? with
  | some ⟨operation, .call e next⟩ =>
    ⟨s.world.after stores chance i e,
      s.tasks.set i ⟨operation, next (s.world.reply stores chance e)⟩⟩
  | some ⟨operation, .fail .unfinished⟩ =>
    { s with tasks := s.tasks.set i ⟨operation, I.procedure operation⟩ }
  | _ => s

def act (stores : Stores) (s : Office I) : Move I → Office I
  | .start operation => { s with tasks := s.tasks ++ [⟨operation, I.procedure operation⟩] }
  | .advance i chance => s.advance stores i chance

/-- The office after some moves. -/
def after (stores : Stores) (s : Office I) (moves : List (Move I)) : Office I :=
  moves.foldl (act stores) s

/-- The office after some moves from empty tables. -/
def run (stores : Stores) (moves : List (Move I)) : Office I :=
  initial.after stores moves

/-- That a task is about an operation and has ended in a certain way. -/
def Ended (s : Office I) (i : Nat) (operation : I.Operation)
    (outcome : Except Failure (I.Result operation)) : Prop :=
  ∃ rest, s.tasks[i]? = some ⟨operation, rest⟩ ∧ rest.outcome? = some outcome

/-- No operation is under way. -/
def Quiescent (s : Office I) : Prop :=
  ∀ task ∈ s.tasks, task.rest.outcome?.isSome

theorem found_of_append {tasks : List (Task I)} {task found : Task I} {i : Nat}
    (hfound : (tasks ++ [task])[i]? = some found) :
    tasks[i]? = some found ∨ i = tasks.length ∧ task = found := by
  rcases Nat.lt_trichotomy i tasks.length with hold | rfl | hbeyond
  · rw [List.getElem?_append_left hold] at hfound
    exact .inl hfound
  · rw [List.getElem?_concat_length] at hfound
    exact .inr ⟨rfl, Option.some.inj hfound⟩
  · have hnone : (tasks ++ [task])[i]? = none := by
      rw [List.getElem?_eq_none_iff, List.length_append, List.length_singleton]
      omega
    rw [hnone] at hfound
    cases hfound

theorem found_of_set {tasks : List (Task I)} {task found : Task I} {i j : Nat}
    (hfound : (tasks.set i task)[j]? = some found) :
    j = i ∧ task = found ∨ j ≠ i ∧ tasks[j]? = some found := by
  by_cases hj : i = j
  · rw [List.getElem?_set, if_pos hj] at hfound
    split at hfound
    · exact .inl ⟨hj.symm, Option.some.inj hfound⟩
    · cases hfound
  · rw [List.getElem?_set_ne hj] at hfound
    exact .inr ⟨Ne.symm hj, hfound⟩

theorem after_append (stores : Stores) (s : Office I) (moves more : List (Move I)) :
    s.after stores (moves ++ more) = (s.after stores moves).after stores more :=
  List.foldl_append

theorem run_append (stores : Stores) (moves more : List (Move I)) :
    run stores (moves ++ more) = (run stores moves).after stores more :=
  after_append stores initial moves more

end Office

end CertAuthority
