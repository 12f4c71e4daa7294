import CertAuthority.Proofs.Office.Conduct
import CertAuthority.Proofs.Office.Course

/-!
# What a task has asked of the tables

Of the effects of a task the calls to tables tell what it has done.  Between them it may read the
clock, draw bytes and take and release locks; that leaves the law, the tables and the calls alone,
so these rules pass over it.
-/

namespace CertAuthority

/-- Whether an effect is a call to a table. -/
def Effect.isCall : Effect → Bool
  | .table _ _ => true
  | _ => false

/-- Whether an effect asks some table to write. -/
def Effect.asksWrite : Effect → Bool
  | .table _ (.create _ _) => true
  | .table _ (.update _ _ _) => true
  | .table _ (.delete _ _) => true
  | _ => false

theorem Effect.not_writesTo_of_not_asksWrite {e : Effect} (he : e.asksWrite = false)
    (name : TableName) : e.writesTo name = false := by
  cases e with
  | table written call => cases call <;> first | rfl | cases he
  | now => rfl
  | random count => rfl
  | lock id => rfl
  | unlock id => rfl

theorem Effect.not_asksWrite_of_not_isCall {e : Effect} (he : e.isCall = false) :
    e.asksWrite = false := by
  cases e with
  | table written call => cases he
  | now => rfl
  | random count => rfl
  | lock id => rfl
  | unlock id => rfl

/-- That an effect asks no write but one of a kind. -/
def Effect.Among (writes : Effect → Prop) (e : Effect) : Prop :=
  e.asksWrite → writes e

theorem Effect.among_of_not_asksWrite {e : Effect} (he : e.asksWrite = false)
    (writes : Effect → Prop) : e.Among writes := by
  intro hasks
  rw [he] at hasks
  cases hasks

theorem Effect.among_of_writes {writes : Effect → Prop} {e : Effect} (he : writes e) :
    e.Among writes :=
  fun _ => he

/-- An effect that is among writes of a kind asks no write, or is one of them. -/
theorem Effect.Among.elim {writes : Effect → Prop} {e : Effect} {holds : Prop}
    (he : e.Among writes) (hquiet : e.asksWrite = false → holds) (hwrites : writes e → holds) :
    holds := by
  cases hasks : e.asksWrite with
  | false => exact hquiet hasks
  | true => exact hwrites (he hasks)

theorem Event.isCall_of_isWrite {event : Event} (hwrite : event.isWrite) :
    event.effect.isCall := by
  obtain ⟨task, e, reply⟩ := event
  cases e with
  | table name call => rfl
  | now => cases hwrite
  | random count => cases hwrite
  | lock id => cases hwrite
  | unlock id => cases hwrite

/-- Writes are calls. -/
theorem Event.filter_isWrite_filter_isCall (past : List Event) :
    (past.filter (·.effect.isCall)).filter (·.isWrite) = past.filter (·.isWrite) := by
  rw [List.filter_filter]
  apply List.filter_congr
  intro event _
  cases hwrite : event.isWrite with
  | false => rfl
  | true => rw [Bool.true_and, Event.isCall_of_isWrite hwrite]

namespace World

/-- The calls to tables that a task has had, each with its answer. -/
def calls (w : World) (task : Nat) : List Event :=
  (w.past task).filter (·.effect.isCall)

theorem Precedes.calls {w found : World} {task : Nat} (hfound : w.Precedes task found) :
    found.calls task = w.calls task := by
  rw [World.calls, hfound.past, World.calls]

theorem mem_calls_iff {w : World} {task : Nat} {event : Event} :
    event ∈ w.calls task ↔ event ∈ w.past task ∧ event.effect.isCall := by
  simp [calls]

theorem mem_log_of_mem_calls {w : World} {task : Nat} {event : Event}
    (hevent : event ∈ w.calls task) : event ∈ w.log :=
  (mem_past_iff.mp (mem_calls_iff.mp hevent).1).1

theorem mem_calls_of_mem_writes {w : World} {name : TableName} {key : String} {event : Event}
    (hevent : event ∈ w.writes name key) : event ∈ w.calls event.task := by
  obtain ⟨hlog, hat⟩ := List.mem_filter.mp hevent
  refine mem_calls_iff.mpr ⟨mem_past_iff.mpr ⟨hlog, rfl⟩, ?_⟩
  apply Event.isCall_of_isWrite
  simp only [Event.writesAt, Bool.and_eq_true] at hat
  exact hat.1

theorem filter_isWrite_calls (w : World) (task : Nat) :
    (w.calls task).filter (·.isWrite) = (w.past task).filter (·.isWrite) :=
  Event.filter_isWrite_filter_isCall (w.past task)

theorem mem_filter_isWrite_calls {w : World} {event : Event} (hwrite : event.isWrite) :
    event ∈ (w.calls event.task).filter (·.isWrite) ↔ event ∈ w.log := by
  rw [filter_isWrite_calls, List.mem_filter, mem_past_iff]
  exact ⟨fun hmem => hmem.1.1, fun hmem => ⟨⟨hmem, rfl⟩, hwrite⟩⟩

theorem calls_after_of_not_isCall (w : World) (stores : Stores) (chance : Chance) (task : Nat)
    {e : Effect} (he : e.isCall = false) :
    (w.after stores chance task e).calls task = w.calls task := by
  simp [calls, past_after, he]

theorem calls_after_table (w : World) (stores : Stores) (chance : Chance) (task : Nat)
    (name : TableName) (call : TableCall name.Row) :
    (w.after stores chance task (.table name call)).calls task =
      w.calls task ++ [⟨task, .table name call, w.reply stores chance (.table name call)⟩] := by
  simp [calls, past_after, Effect.isCall]

/-- What a task had called before one of its calls. -/
theorem calls_prefix {w later : World} {event : Event} (hevent : event.effect.isCall)
    (hlog : w.log ++ [event] <+: later.log) :
    w.calls event.task ++ [event] <+: later.calls event.task := by
  have hcalls := (hlog.filter (·.task = event.task)).filter (·.effect.isCall)
  simpa [calls, past, hevent] using hcalls

end World

/-- A law that only writes can break. -/
def Steady (law : World → Prop) : Prop :=
  ∀ w stores chance task e, Effect.asksWrite e = false → law w →
    law (w.after stores chance task e)

theorem steady_ruled (name : TableName) (rule : Rule name) : Steady (World.Ruled name rule) :=
  fun _ stores chance task _ he hlaw =>
    hlaw.after_other stores chance task (Effect.not_writesTo_of_not_asksWrite he name)

theorem Steady.and {first second : World → Prop} (hfirst : Steady first)
    (hsecond : Steady second) : Steady fun w => first w ∧ second w :=
  fun w stores chance task e he hlaw =>
    ⟨hfirst w stores chance task e he hlaw.1, hsecond w stores chance task e he hlaw.2⟩

/-- A promise that is about the calls to tables and about what is still to do. -/
abbrev Account (α : Type) := Promise α

/-- The promise to have had calls of which an account tells. -/
def Promise.ofAccount {α : Type} (account : Account α) : Promise α :=
  fun past rest => account (past.filter (·.effect.isCall)) rest

namespace Procedure

variable {α β : Type} {law : World → Prop} {stores : Stores} {task : Nat} {w : World}

theorem bind_done_right (p : Procedure α) : p.bind .done = p := by
  induction p with
  | done a => rfl
  | fail f => rfl
  | call e next ih =>
      rw [bind_call]
      congr 1
      funext reply
      exact ih reply

/-- What has not given a value gives none to what follows. -/
theorem bind_ne_done {p : Procedure β} (hp : ∀ b, p ≠ .done b) (f : β → Procedure α) (a : α) :
    p.bind f ≠ .done a := by
  cases p with
  | done b => exact absurd rfl (hp b)
  | fail e => nofun
  | call e next => nofun

/-- Has effects of one kind only. -/
def Only (allowed : Effect → Prop) : Procedure α → Prop
  | .done _ => True
  | .fail _ => True
  | .call e next => allowed e ∧ ∀ reply, Only allowed (next reply)

/-- Asks nothing of the tables, and comes to an end, with a value of a kind if with any. -/
def Quiet (yields : α → Prop) : Procedure α → Prop
  | .done a => yields a
  | .fail f => f ≠ .unfinished
  | .call e next => e.isCall = false ∧ ∀ reply, Quiet yields (next reply)

/-- Has an effect to come. -/
def Going : Procedure α → Prop
  | .call _ _ => True
  | _ => False

/-- Has given no value: it is going on, or has failed. -/
def Fruitless : Procedure α → Prop
  | .call _ _ => True
  | .fail f => f ≠ .unfinished
  | .done _ => False

theorem Only.bind {allowed : Effect → Prop} {p : Procedure α} (hp : p.Only allowed)
    {f : α → Procedure β} (hf : ∀ a, (f a).Only allowed) : (p.bind f).Only allowed := by
  induction p with
  | done a => exact hf a
  | fail e => trivial
  | call e next ih => exact ⟨hp.1, fun reply => ih reply (hp.2 reply)⟩

theorem Only.mono {allowed wider : Effect → Prop} {p : Procedure α} (hp : p.Only allowed)
    (hwider : ∀ e, allowed e → wider e) : p.Only wider := by
  induction p with
  | done a => trivial
  | fail e => trivial
  | call e next ih => exact ⟨hwider e hp.1, fun reply => ih reply (hp.2 reply)⟩

/-- What is done at the end. -/
theorem Only.ensuring {allowed : Effect → Prop} {p : Procedure α} (hp : p.Only allowed)
    {last : Effect} (hlast : allowed last) : (p.ensuring last).Only allowed := by
  induction p with
  | done a => exact ⟨hlast, fun _ => trivial⟩
  | fail e => exact ⟨hlast, fun _ => trivial⟩
  | call e next ih => exact ⟨hp.1, fun reply => ih reply (hp.2 reply)⟩

/-- Asks no writes but those of a kind. -/
abbrev Asks (writes : Effect → Prop) (p : Procedure α) : Prop :=
  p.Only (Effect.Among writes)

theorem asks_now (writes : Effect → Prop) : now.Asks writes :=
  ⟨Effect.among_of_not_asksWrite rfl writes, fun _ => trivial⟩

theorem asks_ofExcept (writes : Effect → Prop) (result : Except CaError α) :
    (ofExcept result).Asks writes := by
  cases result <;> trivial

theorem asks_query {writes : Effect → Prop} {name : TableName} {call : TableCall name.Row}
    (hcall : (Effect.table name call).Among writes) : (query name call).Asks writes :=
  ⟨hcall, asks_ofExcept writes⟩

/-- Reading an entry or a whole table asks no write. -/
theorem asks_reading {name : TableName} {call : TableCall name.Row}
    (hcall : (Effect.table name call).asksWrite = false) (writes : Effect → Prop) :
    (query name call).Asks writes :=
  asks_query (Effect.among_of_not_asksWrite hcall writes)

theorem Quiet.mono {yields wider : α → Prop} {p : Procedure α} (hp : p.Quiet yields)
    (hwider : ∀ a, yields a → wider a) : p.Quiet wider := by
  induction p with
  | done a => exact hwider a hp
  | fail e => exact hp
  | call e next ih => exact ⟨hp.1, fun reply => ih reply (hp.2 reply)⟩

theorem Quiet.asks_bind {yields : β → Prop} {p : Procedure β} (hp : p.Quiet yields)
    {writes : Effect → Prop} {f : β → Procedure α} (hf : ∀ b, yields b → (f b).Asks writes) :
    (p.bind f).Asks writes := by
  induction p with
  | done b => exact hf b hp
  | fail e => trivial
  | call e next ih =>
      have hquiet := Effect.not_asksWrite_of_not_isCall hp.1
      exact ⟨Effect.among_of_not_asksWrite hquiet writes, fun reply => ih reply (hp.2 reply)⟩

/-- Who has only effects that leave the law in force keeps it, and can say so of its past. -/
theorem Only.keeps {allowed : Effect → Prop} {p : Procedure α} (hp : p.Only allowed)
    (hlaw : ∀ w : World, law w → ∀ chance e, allowed e → law (w.after stores chance task e))
    (hpast : ∀ event ∈ w.past task, allowed event.effect) :
    p.Keeps law stores task (fun past _ => ∀ event ∈ past, allowed event.effect) w := by
  induction p generalizing w with
  | done a => exact hpast
  | fail e => exact hpast
  | call e next ih =>
      refine ⟨hpast, fun found hfound _ hfoundLaw chance => ?_⟩
      refine ⟨hlaw found hfoundLaw chance e hp.1, ?_⟩
      apply ih _ (hp.2 _)
      intro event hevent
      rw [hfound.past_after, List.mem_append, List.mem_singleton] at hevent
      rcases hevent with hold | rfl
      · exact hpast event hold
      · exact hp.1

/-- A procedure that has ended. -/
def ended : Except Failure α → Procedure α
  | .ok a => .done a
  | .error f => .fail f

/-- Ends in one way, after at most so many effects that ask nothing of the tables. -/
inductive Concludes (outcome : Except Failure α) : Nat → Procedure α → Prop where
  | now (effects : Nat) : Concludes outcome effects (ended outcome)
  | later {effects : Nat} {e : Effect} {next : e.Reply → Procedure α} (he : e.isCall = false)
    (hnext : ∀ reply, Concludes outcome effects (next reply)) :
    Concludes outcome (effects + 1) (.call e next)

theorem going_ensuring (p : Procedure α) (last : Effect) : (p.ensuring last).Going := by
  cases p <;> trivial

theorem Going.fruitless {p : Procedure α} (hp : p.Going) : p.Fruitless := by
  cases p with
  | done a => exact hp
  | fail f => exact hp.elim
  | call e next => exact hp

theorem Concludes.ne_unfinished {e : CaError} {effects : Nat} {p : Procedure α}
    (hp : p.Concludes (.error (.error e)) effects) : p ≠ .fail .unfinished := by
  cases hp <;> nofun

theorem Concludes.ensuring {outcome : Except Failure α} {effects : Nat} {p : Procedure α}
    (hp : p.Concludes outcome effects) {last : Effect} (hlast : last.isCall = false) :
    (p.ensuring last).Concludes outcome (effects + 1) := by
  induction hp with
  | now effects =>
      cases outcome with
      | ok a => exact .later hlast fun _ => .now effects
      | error f => exact .later hlast fun _ => .now effects
  | later he hnext ih => exact .later he ih

/-- Whatever is bound to end in one way has ended in that way, if it has ended. -/
theorem Concludes.outcome_eq {outcome found : Except Failure α} {effects : Nat} {p : Procedure α}
    (hp : p.Concludes outcome effects) (hfound : p.outcome? = some found) : found = outcome := by
  cases hp with
  | now =>
      cases outcome with
      | ok a =>
          cases hfound
          rfl
      | error f =>
          cases f <;> cases hfound <;> rfl
  | later he hnext => cases hfound

theorem Concludes.failsWithin {e : CaError} {effects : Nat} {p : Procedure α}
    (hp : p.Concludes (.error (.error e)) effects) (given : World → Prop) (stores : Stores)
    (loop : Procedure α) : p.FailsWithin given stores (· = e) loop effects := by
  induction hp with
  | now effects =>
      apply failsWithin_error
      rfl
  | later he hnext ih => exact fun w _ chance => ih _

/-- Comes to an end within so many effects when it is done alone from a world, and the end and the
world that it leaves are as told. -/
def Leaves (stores : Stores) (task : Nat) (told : Except Failure α → World → Prop) :
    Procedure α → Nat → World → Prop
  | .done a, _, w => told (.ok a) w
  | .fail f, _, w => told (.error f) w
  | .call e next, effects + 1, w => ∀ chance,
    Leaves stores task told (next (w.reply stores chance e)) effects (w.after stores chance task e)
  | .call _ _, 0, _ => False

section Leaves

variable {told : Except Failure α → World → Prop} {effects : Nat} {p : Procedure α}

theorem leaves_done {a : α} (ha : told (.ok a) w) (effects : Nat) :
    (Procedure.done a).Leaves stores task told effects w := by
  cases effects <;> exact ha

theorem leaves_fail {f : Failure} (hf : told (.error f) w) (effects : Nat) :
    (Procedure.fail f).Leaves stores task told effects w := by
  cases effects <;> exact hf

theorem Leaves.told_of_ended (outcome : Except Failure α)
    (hp : (ended outcome).Leaves stores task told effects w) : told outcome w := by
  cases outcome <;> cases effects <;> exact hp

theorem Leaves.mono {wider : Except Failure α → World → Prop} {more : Nat}
    (hp : p.Leaves stores task told effects w) (hmore : effects ≤ more)
    (hwider : ∀ outcome found, told outcome found → wider outcome found) :
    p.Leaves stores task wider more w := by
  induction p generalizing w effects more with
  | done a => exact leaves_done (hwider _ _ (told_of_ended (.ok a) hp)) more
  | fail f => exact leaves_fail (hwider _ _ (told_of_ended (.error f) hp)) more
  | call e next ih =>
      cases effects with
      | zero => exact hp.elim
      | succ effects =>
          obtain ⟨more, rfl⟩ := Nat.exists_eq_add_of_lt hmore
          exact fun chance => ih _ (hp chance) (by omega)

/-- One after the other. -/
theorem Leaves.bind {later : Except Failure β → World → Prop} {more : Nat} {f : α → Procedure β}
    (hp : p.Leaves stores task told effects w)
    (hdone : ∀ a found, told (.ok a) found → (f a).Leaves stores task later more found)
    (hfail : ∀ failure found, told (.error failure) found → later (.error failure) found) :
    (p.bind f).Leaves stores task later (more + effects) w := by
  induction p generalizing w effects with
  | done a =>
      have ha : told (.ok a) w := told_of_ended (.ok a) hp
      exact (hdone a w ha).mono (Nat.le_add_right _ _) fun _ _ hlater => hlater
  | fail e => exact leaves_fail (hfail e w (told_of_ended (.error e) hp)) _
  | call e next ih =>
      cases effects with
      | zero => exact hp.elim
      | succ effects => exact fun chance => ih _ (hp chance)

/-- Whatever it has ended with is as told. -/
theorem Leaves.of_alone (hp : p.Leaves stores task told effects w) {chances : List Chance}
    {outcome : Except Failure α} {later : World}
    (halone : p.alone stores task chances w = (ended outcome, later)) : told outcome later := by
  induction p generalizing w effects chances with
  | done a =>
      obtain ⟨hended, rfl⟩ := Prod.mk.inj halone
      rw [hended] at hp
      exact told_of_ended outcome hp
  | fail f =>
      obtain ⟨hended, rfl⟩ := Prod.mk.inj halone
      rw [hended] at hp
      exact told_of_ended outcome hp
  | call e next ih =>
      cases chances with
      | nil => cases outcome <;> cases halone
      | cons chance chances =>
          cases effects with
          | zero => exact hp.elim
          | succ effects => exact ih _ (hp chance) halone

/-- It has ended once it has had its effects. -/
theorem Leaves.exists_ended (hp : p.Leaves stores task told effects w) {chances : List Chance}
    (hchances : effects ≤ chances.length) :
    ∃ outcome later, p.alone stores task chances w = (ended outcome, later) := by
  induction p generalizing w effects chances with
  | done a => exact ⟨.ok a, w, rfl⟩
  | fail f => exact ⟨.error f, w, rfl⟩
  | call e next ih =>
      cases effects with
      | zero => exact hp.elim
      | succ effects =>
          cases chances with
          | nil => cases hchances
          | cons chance chances =>
              exact ih _ (hp chance) (Nat.le_of_succ_le_succ hchances)

end Leaves

section Account

variable {account : Account α} {calls : List Event}

theorem promised_of_calls {p : Procedure α} (hcalls : w.calls task = calls)
    (hnow : account calls p) : Promise.ofAccount account (w.past task) p :=
  (congrArg (account · p) hcalls).mpr hnow

theorem keeps_done (a : α) (hcalls : w.calls task = calls) (hended : account calls (.done a)) :
    (Procedure.done a).Keeps law stores task (.ofAccount account) w :=
  promised_of_calls hcalls hended

theorem keeps_fail (f : Failure) (hcalls : w.calls task = calls)
    (hended : account calls (.fail f)) :
    (Procedure.fail f : Procedure α).Keeps law stores task (.ofAccount account) w :=
  promised_of_calls hcalls hended

/-- A call to a table, which is answered where others may have brought the world. -/
theorem keeps_table {name : TableName} {call : TableCall name.Row}
    {next : call.Reply → Procedure α} (hcalls : w.calls task = calls)
    (hnow : account calls (.call (.table name call) next))
    (hlaw : ∀ (found : World) chance, w.log <+: found.log → law found →
      law (found.after stores chance task (.table name call)))
    (hnext : ∀ (found later : World) chance reply, law found → law later →
      found.reply stores chance (.table name call) = reply →
      w.log <+: found.log → found.log <+: later.log → later.Reachable stores →
      later.calls task = calls ++ [⟨task, .table name call, reply⟩] →
        (next reply).Keeps law stores task (.ofAccount account) later) :
    (Procedure.call (.table name call) next).Keeps law stores task (.ofAccount account) w := by
  refine ⟨promised_of_calls hcalls hnow, ?_⟩
  intro found hfound hreachable hfoundLaw chance
  have hafter := hlaw found chance hfound.log hfoundLaw
  have hgrown := found.log_prefix_after stores chance task (.table name call)
  refine ⟨hafter, hnext found _ chance _ hfoundLaw hafter rfl hfound.log hgrown
    (hreachable.after chance task _) ?_⟩
  rw [World.calls_after_table, hfound.calls, hcalls]

/-- The reading of an entry fails, where stores may fail, or shows the entry that is there. -/
theorem keeps_get (hsteady : Steady law) {name : TableName} {key : String}
    {next : Except CaError (Option (Versioned name.Row)) → Procedure α}
    (hcalls : w.calls task = calls) (hnow : account calls (.call (.table name (.get key)) next))
    (herror : ∀ e (later : World), e.isOfTable → stores = .failing →
      later.calls task = calls ++ [⟨task, .table name (.get key), .error e⟩] →
        (next (.error e)).Keeps law stores task (.ofAccount account) later)
    (hfound : ∀ (found later : World), law found → law later → w.log <+: found.log →
      found.log <+: later.log → later.Reachable stores →
      later.calls task = calls ++ [⟨task, .table name (.get key), .ok (found.find? name key)⟩] →
        (next (.ok (found.find? name key))).Keeps law stores task (.ofAccount account) later) :
    (Procedure.call (.table name (.get key)) next).Keeps law stores task
      (.ofAccount account) w := by
  refine keeps_table hcalls hnow (fun found chance _ hlaw => hsteady _ _ _ _ _ rfl hlaw) ?_
  intro found later chance reply hlaw hlater hreply hbefore hlog hreachable hsame
  rcases found.reply_get stores chance name key with ⟨e, htable, herr⟩ | hok
  · have hfailing := World.failing_of_get_error herr
    rw [herr] at hreply
    subst hreply
    exact herror e later htable hfailing hsame
  · rw [hok] at hreply
    subst hreply
    exact hfound found later hlaw hlater hbefore hlog hreachable hsame

/-- An effect that asks nothing of the tables. -/
theorem keeps_quiet (hsteady : Steady law) {e : Effect} (he : e.isCall = false)
    {next : e.Reply → Procedure α} (hcalls : w.calls task = calls)
    (hnow : account calls (.call e next))
    (hnext : ∀ reply (later : World), w.log <+: later.log → later.calls task = calls →
      later.Reachable stores → law later →
        (next reply).Keeps law stores task (.ofAccount account) later) :
    (Procedure.call e next).Keeps law stores task (.ofAccount account) w := by
  refine ⟨promised_of_calls hcalls hnow, ?_⟩
  intro found hfound hreachable hlaw chance
  have hafter :=
    hsteady found stores chance task e (Effect.not_asksWrite_of_not_isCall he) hlaw
  refine ⟨hafter, hnext _ _ ?_ ?_ (hreachable.after chance task e) hafter⟩
  · exact hfound.log.trans (World.log_prefix_after _ _ _ _ _)
  · rw [World.calls_after_of_not_isCall _ _ _ _ he, hfound.calls, hcalls]

/-- What follows upon a procedure that asks nothing of the tables. -/
theorem Quiet.keeps_bind (hsteady : Steady law) {p : Procedure β} {yields : β → Prop}
    (hp : p.Quiet yields) {f : β → Procedure α} (hreachable : w.Reachable stores) (hlaw : law w)
    (hcalls : w.calls task = calls)
    (hnow : ∀ rest : Procedure α, rest.Fruitless → account calls rest)
    (hf : ∀ b (later : World), yields b → w.log <+: later.log → later.calls task = calls →
      later.Reachable stores → law later →
        (f b).Keeps law stores task (.ofAccount account) later) :
    (p.bind f).Keeps law stores task (.ofAccount account) w := by
  induction p generalizing w with
  | done b => exact hf b w hp (List.prefix_refl _) hcalls hreachable hlaw
  | fail e => exact keeps_fail e hcalls (hnow _ hp)
  | call e next ih =>
      apply keeps_quiet hsteady hp.1 hcalls (hnow _ trivial)
      intro reply found hlog hsame hfound hfoundLaw
      apply ih reply (hp.2 reply) hfound hfoundLaw hsame
      intro b later hb hlater
      exact hf b later hb (hlog.trans hlater)

/-- What is done at the end, if it asks nothing of the tables. -/
theorem Keeps.ensuring (hsteady : Steady law) {p : Procedure α} {last : Effect}
    (hlast : last.isCall = false)
    (hensuring : ∀ calls rest, account calls rest → account calls (rest.ensuring last))
    (hp : p.Keeps law stores task (.ofAccount account) w) :
    (p.ensuring last).Keeps law stores task (.ofAccount account) w := by
  induction p generalizing w with
  | done a =>
      refine keeps_quiet hsteady hlast rfl (hensuring _ _ hp) fun _ found _ hcalls _ _ => ?_
      exact keeps_done a hcalls hp
  | fail e =>
      refine keeps_quiet hsteady hlast rfl (hensuring _ _ hp) fun _ found _ hcalls _ _ => ?_
      exact keeps_fail e hcalls hp
  | call e next ih =>
      refine ⟨hensuring _ _ hp.1, fun found hfound hreachable hlaw chance => ?_⟩
      obtain ⟨hafter, hnext⟩ := hp.2 found hfound hreachable hlaw chance
      exact ⟨hafter, ih _ hnext⟩

end Account

end Procedure

/-- If every operation has only effects that leave the law in force, the law is kept, and every task
can say so of its past. -/
theorem Interface.keeps_of_only {I : Interface} {law : World → Prop} {stores : Stores}
    {allowed : I.Operation → Effect → Prop} (hempty : law World.empty)
    (honly : ∀ operation, (I.procedure operation).Only (allowed operation))
    (hlaw : ∀ operation (w : World), law w → ∀ chance task e, allowed operation e →
      law (w.after stores chance task e)) :
    I.Keeps law stores fun operation _ past _ =>
      ∀ event ∈ past, allowed operation event.effect where
  empty := hempty
  start := by
    intro operation task w _ _ hpast
    apply (honly operation).keeps fun w hw chance e he => hlaw operation w hw chance task e he
    rw [hpast]
    exact List.forall_mem_nil _
  again := by
    intro operation task w _ _ hpromise
    exact (honly operation).keeps (fun w hw chance e he => hlaw operation w hw chance task e he)
      hpromise

end CertAuthority
