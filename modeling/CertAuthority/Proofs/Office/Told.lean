import CertAuthority.Proofs.Office.Course
import CertAuthority.Proofs.Office.Hosted
import CertAuthority.Proofs.Office.Opening

/-!
# What tasks are told

What a task is told may decide how it ends: from then on it ends in certain ways only, and in others
before.  Neither depends on when it goes on, nor on what others do.  It may also be a warrant for
what the task asks for afterwards.  What a task is told of the tables was written by somebody; as
long as everybody only writes back what is of a kind, nobody is told anything else.
-/

namespace CertAuthority

namespace Procedure

variable {α : Type} {stores : Stores} {task : Nat} {w : World}

/-- Whoever says nothing keeps it, under no law. -/
theorem keeps_nothing (p : Procedure α) (w : World) :
    p.Keeps (fun _ => True) stores task (fun _ _ => True) w := by
  induction p generalizing w with
  | done a => trivial
  | fail f => trivial
  | call e next ih => exact ⟨trivial, fun _ _ _ _ _ => ⟨trivial, ih _ _⟩⟩

/-- Ends in one of certain ways, if it ends, whatever it is replied. -/
def EndsAs (stores : Stores) (ways : Except Failure α → Prop) : Procedure α → Prop
  | .done a => ways (.ok a)
  | .fail f => f ≠ .unfinished ∧ ways (.error f)
  | .call e next => ∀ (w : World) chance, EndsAs stores ways (next (w.reply stores chance e))

/-- Ends in certain ways if it was told something of a kind, and in others if it was not. -/
def Turns (stores : Stores) (told : (e : Effect) → e.Reply → Prop)
    (before after : Except Failure α → Prop) : Procedure α → Prop
  | .done a => before (.ok a)
  | .fail f => f ≠ .unfinished ∧ before (.error f)
  | .call e next => ∀ (w : World) chance,
    (told e (w.reply stores chance e) → EndsAs stores after (next (w.reply stores chance e))) ∧
      (¬ told e (w.reply stores chance e) →
        Turns stores told before after (next (w.reply stores chance e)))

variable {told : (e : Effect) → e.Reply → Prop} {before after : Except Failure α → Prop}

theorem EndsWithin.endsAs {p : Procedure α} {effects : Nat} (hends : p.EndsWithin effects) :
    p.EndsAs stores fun _ => True := by
  induction p generalizing effects with
  | done a => trivial
  | fail f => exact ⟨hends, trivial⟩
  | call e next ih =>
      cases effects with
      | zero => exact hends.elim
      | succ effects => exact fun w chance => ih _ (hends _)

theorem EndsAs.mono {p : Procedure α} (hp : p.EndsAs stores before)
    (hweaker : ∀ outcome, before outcome → after outcome) : p.EndsAs stores after := by
  induction p with
  | done a => exact hweaker _ hp
  | fail f => exact ⟨hp.1, hweaker _ hp.2⟩
  | call e next ih => exact fun w chance => ih _ (hp w chance)

/-- Whatever it is told, it ends. -/
theorem Turns.ends {p : Procedure α} (hp : p.Turns stores told before after) :
    p.EndsAs stores fun _ => True := by
  induction p with
  | done a => trivial
  | fail f => exact ⟨hp.1, trivial⟩
  | call e next ih =>
      intro w chance
      obtain ⟨hturned, hstill⟩ := hp w chance
      by_cases htold : told e (w.reply stores chance e)
      · exact (hturned htold).mono fun _ _ => trivial
      · exact ih _ (hstill htold)

/-- Ends in certain ways unless it is told something of a kind. -/
abbrev Unless (stores : Stores) (told : (e : Effect) → e.Reply → Prop)
    (ways : Except Failure α → Prop) (p : Procedure α) : Prop :=
  p.Turns stores told ways fun _ => True

/-- What ends in the same ways whatever it is told needs no exception. -/
theorem EndsAs.unless {p : Procedure α} (hp : p.EndsAs stores before) :
    p.Unless stores told before := by
  induction p with
  | done a => exact hp
  | fail f => exact hp
  | call e next ih =>
      intro w chance
      exact ⟨fun _ => (hp w chance).mono fun _ _ => trivial, fun _ => ih _ (hp w chance)⟩

section Sequence

variable {β : Type} {p : Procedure β} {f : β → Procedure α} {early : Except Failure β → Prop}

theorem EndsAs.bind (hp : p.EndsAs stores early)
    (hfail : ∀ e, early (.error e) → after (.error e))
    (hf : ∀ b, (f b).EndsAs stores after) : (p.bind f).EndsAs stores after := by
  induction p with
  | done b => exact hf b
  | fail e => exact ⟨hp.1, hfail e hp.2⟩
  | call e next ih => exact fun w chance => ih _ (hp w chance)

theorem Unless.bind (hp : p.Unless stores told early)
    (hfail : ∀ e, early (.error e) → before (.error e))
    (hf : ∀ b, (f b).Unless stores told before) : (p.bind f).Unless stores told before := by
  induction p with
  | done b => exact hf b
  | fail e => exact ⟨hp.1, hfail e hp.2⟩
  | call e next ih =>
      intro w chance
      obtain ⟨hturned, hstill⟩ := hp w chance
      exact ⟨fun htold => (hturned htold).bind (fun _ _ => trivial) fun b => (hf b).ends,
        fun huntold => ih _ (hstill huntold)⟩

end Sequence

theorem EndsAs.ensuring {p : Procedure α} (hp : p.EndsAs stores after) (last : Effect) :
    (p.ensuring last).EndsAs stores after := by
  induction p with
  | done a => exact fun _ _ => hp
  | fail f => exact fun _ _ => hp
  | call e next ih => exact fun w chance => ih _ (hp w chance)

/-- What is done at the end tells nothing. -/
theorem Turns.ensuring {p : Procedure α} (hp : p.Turns stores told before after) {last : Effect}
    (hlast : ∀ reply, ¬ told last reply) : (p.ensuring last).Turns stores told before after := by
  induction p with
  | done a => exact fun _ _ => ⟨fun htold => (hlast _ htold).elim, fun _ => hp⟩
  | fail f => exact fun _ _ => ⟨fun htold => (hlast _ htold).elim, fun _ => hp⟩
  | call e next ih =>
      intro w chance
      obtain ⟨hturned, hstill⟩ := hp w chance
      exact ⟨fun htold => (hturned htold).ensuring last, fun huntold => ih _ (hstill huntold)⟩

/-- The promise to end in certain ways if something of a kind was told, and in others if not. -/
inductive Turning (stores : Stores) (told : (e : Effect) → e.Reply → Prop)
    (before after : Except Failure α → Prop) (past : List Event) (rest : Procedure α) : Prop where
  | ahead (huntold : ∀ event ∈ past, ¬ told event.effect event.reply)
    (hrest : rest.Turns stores told before after)
  | behind (htold : ∃ event ∈ past, told event.effect event.reply)
    (hrest : rest.EndsAs stores after)

theorem EndsAs.keeps {p : Procedure α} (hp : p.EndsAs stores after)
    (htold : ∃ event ∈ w.past task, told event.effect event.reply) :
    p.Keeps (fun _ => True) stores task (Turning stores told before after) w := by
  induction p generalizing w with
  | done a => exact .behind htold hp
  | fail f => exact .behind htold hp
  | call e next ih =>
      refine ⟨.behind htold hp, fun found hfound _ _ chance => ⟨trivial, ?_⟩⟩
      apply ih _ (hp found chance)
      obtain ⟨event, hevent, htold⟩ := htold
      rw [hfound.past_after]
      exact ⟨event, List.mem_append_left _ hevent, htold⟩

/-- Whatever others do in between, it is what was told that decides. -/
theorem Turns.keeps {p : Procedure α} (hp : p.Turns stores told before after)
    (huntold : ∀ event ∈ w.past task, ¬ told event.effect event.reply) :
    p.Keeps (fun _ => True) stores task (Turning stores told before after) w := by
  induction p generalizing w with
  | done a => exact .ahead huntold hp
  | fail f => exact .ahead huntold hp
  | call e next ih =>
      refine ⟨.ahead huntold hp, fun found hfound _ _ chance => ⟨trivial, ?_⟩⟩
      obtain ⟨hturned, hstill⟩ := hp found chance
      by_cases htold : told e (found.reply stores chance e)
      · apply (hturned htold).keeps
        rw [hfound.past_after]
        exact ⟨_, List.mem_append_right _ List.mem_cons_self, htold⟩
      · apply ih _ (hstill htold)
        rw [hfound.past_after]
        intro event hevent
        rcases List.mem_append.mp hevent with hold | hnew
        · exact huntold event hold
        · rw [List.mem_singleton.mp hnew]
          exact htold

theorem Turning.ne_unfinished {past : List Event} {rest : Procedure α}
    (hturning : Turning stores told before after past rest) : rest ≠ .fail .unfinished := by
  rintro rfl
  cases hturning with
  | ahead huntold hrest => exact hrest.1 rfl
  | behind htold hrest => exact hrest.1 rfl

/-- What was told decides how a task has ended. -/
theorem Turning.of_outcome {past : List Event} {rest : Procedure α}
    (hturning : Turning stores told before after past rest) {outcome : Except Failure α}
    (houtcome : rest.outcome? = some outcome) :
    (∃ event ∈ past, told event.effect event.reply) ∧ after outcome ∨
      (∀ event ∈ past, ¬ told event.effect event.reply) ∧ before outcome := by
  cases outcome with
  | ok a =>
      obtain rfl := eq_done_of_outcome? houtcome
      cases hturning with
      | ahead huntold hrest => exact .inr ⟨huntold, hrest⟩
      | behind htold hrest => exact .inl ⟨htold, hrest⟩
  | error f =>
      obtain rfl := eq_fail_of_outcome? houtcome
      cases hturning with
      | ahead huntold hrest => exact .inr ⟨huntold, hrest.2⟩
      | behind htold hrest => exact .inl ⟨htold, hrest.2⟩

/-- Asks only for what its own past is a warrant for. -/
def Justifies (task : Nat) (warrant : List Event → Effect → Prop) :
    Procedure α → List Event → Prop
  | .done _, _ => True
  | .fail _, _ => True
  | .call e next, past =>
    warrant past e ∧ ∀ reply, Justifies task warrant (next reply) (past ++ [⟨task, e, reply⟩])

/-- That there was a warrant for each effect when it was asked for. -/
def Justified (warrant : List Event → Effect → Prop) (past : List Event) : Prop :=
  ∀ event ∈ past, ∃ before, before ++ [event] <+: past ∧ warrant before event.effect

theorem Justifies.keeps {warrant : List Event → Effect → Prop} {p : Procedure α}
    (hp : p.Justifies task warrant (w.past task)) (hpast : Justified warrant (w.past task)) :
    p.Keeps (fun _ => True) stores task (fun past _ => Justified warrant past) w := by
  induction p generalizing w with
  | done a => exact hpast
  | fail f => exact hpast
  | call e next ih =>
      refine ⟨hpast, fun found hfound _ _ chance => ⟨trivial, ih _ ?_ ?_⟩⟩
      · rw [hfound.past_after]
        exact hp.2 _
      · rw [hfound.past_after]
        intro event hevent
        rcases List.mem_append.mp hevent with hold | hnew
        · obtain ⟨before, hbefore, hwarrant⟩ := hpast event hold
          exact ⟨before, hbefore.trans (List.prefix_append _ _), hwarrant⟩
        · obtain rfl := List.mem_singleton.mp hnew
          exact ⟨w.past task, List.prefix_rfl, hp.1⟩

end Procedure

/-- Operations that heed what they are told go on heeding it, as long as the log is of a kind and
such things are told then. -/
theorem Interface.maintains_of_heeds {I : Interface} {told : (e : Effect) → e.Reply → Prop}
    {asked : Effect → Prop} {yields : (operation : I.Operation) → I.Result operation → Prop}
    {stores : Stores} {kind : List Event → Prop}
    (hearlier : ∀ log event, kind (log ++ [event]) → kind log)
    (hheeds : ∀ operation, (I.procedure operation).Heeds told asked (yields operation))
    (htold : ∀ (w : World) chance e, w.Reachable stores → kind w.log →
      (∀ event ∈ w.log, asked event.effect) → told e (w.reply stores chance e)) :
    I.Maintains stores kind
      (fun w => w.Reachable stores ∧
        ∀ event ∈ w.log, asked event.effect ∧ told event.effect event.reply)
      fun _ operation _ rest => rest.Heeds told asked (yields operation) where
  earlier := hearlier
  start operation _ _ _ _ := hheeds operation
  again operation _ _ _ _ := hheeds operation
  call := by
    rintro operation task e next w chance ⟨hreachable, hlog⟩ ⟨hasked, hnext⟩ hkind
    have htelling := htold w chance e hreachable (hearlier _ _ hkind) fun event hevent =>
      (hlog event hevent).1
    refine ⟨⟨hreachable.after chance task e, fun event hevent => ?_⟩, hnext _ htelling,
      fun _ _ _ _ hother => hother⟩
    rcases List.mem_append.mp hevent with hold | hnew
    · exact hlog event hold
    · rw [List.mem_singleton.mp hnew]
      exact ⟨hasked, htelling⟩

namespace Office

/-- What the clock shows in the moves is what is read. -/
theorem time_of_reading {I : Interface} {stores : Stores} {holds : Instant → Prop}
    {moves : List (Move I)} (hmoves : ∀ i chance, .advance i chance ∈ moves → holds chance.time)
    {task : Nat} {now : Instant} (hreading : ⟨task, .now, now⟩ ∈ (run stores moves).world.log) :
    holds now := by
  suffices hlog : ∀ s : Office I, (∀ t u, ⟨t, .now, u⟩ ∈ s.world.log → holds u) →
      ∀ t u, ⟨t, .now, u⟩ ∈ (s.after stores moves).world.log → holds u from
    hlog initial (fun _ _ hnone => (List.not_mem_nil hnone).elim) task now hreading
  clear hreading
  induction moves with
  | nil => exact fun _ hs => hs
  | cons move moves ih =>
      intro s hs
      apply ih fun i chance hmove => hmoves i chance (List.mem_cons_of_mem _ hmove)
      intro t u hevent
      rcases s.act_cases stores move with ⟨operation, hact⟩ |
        ⟨i, operation, e, next, chance, hmove, -, hact⟩ | ⟨i, operation, -, hact⟩ | hact
      · rw [hact] at hevent
        exact hs t u hevent
      · rw [hact] at hevent
        rcases List.mem_append.mp hevent with hold | hnew
        · exact hs t u hold
        · injection List.mem_singleton.mp hnew with _ heffect hreply
          subst heffect
          rw [eq_of_heq hreply]
          exact hmoves i chance (hmove ▸ List.mem_cons_self)
      · rw [hact] at hevent
        exact hs t u hevent
      · rw [hact] at hevent
        exact hs t u hevent

end Office

end CertAuthority
