import CertAuthority.Proofs.Office.Told

/-!
# The trace of a task

What a task has still to do follows from what its effects were replied.  If its operation comes to
an end it is begun once only, so that the whole past of the task is one way through the procedure;
and each effect on that way met the world as it was at some time since the task was started.
-/

namespace CertAuthority

namespace Procedure

variable {α : Type} {task : Nat} {start p rest : Procedure α} {past : List Event} {w : World}

/-- That a procedure comes to what is left of it by certain effects and their replies. -/
inductive Leads (task : Nat) : Procedure α → List Event → Procedure α → Prop where
  | here (p : Procedure α) : Leads task p [] p
  | further {e : Effect} {next : e.Reply → Procedure α} {reply : e.Reply} {past : List Event}
    {rest : Procedure α} (hleads : Leads task (next reply) past rest) :
    Leads task (.call e next) (⟨task, e, reply⟩ :: past) rest

/-- The next effect leads on. -/
theorem Leads.call {e : Effect} {next : e.Reply → Procedure α}
    (hleads : start.Leads task past (.call e next)) (reply : e.Reply) :
    start.Leads task (past ++ [⟨task, e, reply⟩]) (next reply) := by
  generalize hrest : Procedure.call e next = rest at hleads
  induction hleads with
  | here p =>
      subst hrest
      exact .further (.here _)
  | further _ ih => exact .further (ih hrest)

/-- Whoever has come to an end was replied to the first effect. -/
theorem Leads.of_call {e : Effect} {next : e.Reply → Procedure α} {outcome : Except Failure α}
    (hleads : (Procedure.call e next).Leads task past rest)
    (houtcome : rest.outcome? = some outcome) :
    ∃ reply later, past = ⟨task, e, reply⟩ :: later ∧ (next reply).Leads task later rest := by
  cases hleads with
  | here => cases houtcome
  | further hleads => exact ⟨_, _, rfl, hleads⟩

/-- A call to a table has given something, or its error was the end. -/
theorem Leads.of_query {name : TableName} {call : TableCall name.Row}
    {next : call.Payload → Procedure α} {outcome : Except Failure α}
    (hleads : ((Procedure.query name call).bind next).Leads task past rest)
    (houtcome : rest.outcome? = some outcome) :
    (∃ payload later, past = ⟨task, .table name call, .ok payload⟩ :: later ∧
        (next payload).Leads task later rest) ∨
      ∃ e, past = [⟨task, .table name call, .error e⟩] ∧ outcome = .error (.error e) := by
  obtain ⟨reply, later, rfl, hlater⟩ := hleads.of_call houtcome
  cases reply with
  | ok payload => exact .inl ⟨payload, later, rfl, hlater⟩
  | error e =>
      change (Procedure.fail (.error e)).Leads task later rest at hlater
      cases hlater
      cases houtcome
      exact .inr ⟨e, rfl, rfl⟩

theorem Leads.endsWithin (hleads : start.Leads task past rest) {count : Nat}
    (hends : start.EndsWithin count) : ∃ left, rest.EndsWithin left := by
  induction hleads generalizing count with
  | here p => exact ⟨count, hends⟩
  | further _ ih =>
      cases count with
      | zero => exact hends.elim
      | succ count => exact ih (hends _)

/-- Whatever others do in between, a task goes its own way. -/
theorem Leads.keeps {stores : Stores} (hleads : start.Leads task (w.past task) p) :
    p.Keeps (fun _ => True) stores task (fun past rest => start.Leads task past rest) w := by
  induction p generalizing w with
  | done a => exact hleads
  | fail f => exact hleads
  | call e next ih =>
      refine ⟨hleads, fun found hfound _ _ chance => ⟨trivial, ih _ ?_⟩⟩
      rw [hfound.past_after]
      exact hleads.call _

end Procedure

/-- Every operation that comes to an end goes its way once. -/
theorem Interface.keeps_leads (I : Interface) (stores : Stores) :
    I.Keeps (fun _ => True) stores fun operation task past rest =>
      (∃ count, (I.procedure operation).EndsWithin count) →
        (I.procedure operation).Leads task past rest where
  empty := trivial
  start operation task w _ _ hpast := by
    have hleads : (I.procedure operation).Leads task (w.past task) (I.procedure operation) := by
      rw [hpast]
      exact .here _
    exact hleads.keeps.mono fun _ _ hleads _ => hleads
  again operation task w _ _ hpromise := by
    refine ((I.procedure operation).keeps_nothing w).mono fun _ _ _ => ?_
    -- What comes to an end does not begin anew.
    rintro ⟨count, hends⟩
    obtain ⟨left, hleft⟩ := (hpromise ⟨count, hends⟩).endsWithin hends
    exact absurd rfl hleft

namespace Office

variable {I : Interface} {stores : Stores} {s : Office I} {moves first second : List (Move I)}
variable {i : Nat}

/-- The past of a task leads from the start of its operation to what is left of it. -/
theorem leads_of_task {operation : I.Operation} {count : Nat}
    (hends : (I.procedure operation).EndsWithin count)
    {rest : Procedure (I.Result operation)}
    (htask : (run stores moves).tasks[i]? = some ⟨operation, rest⟩) :
    (I.procedure operation).Leads i ((run stores moves).world.past i) rest :=
  ((abides_run (I.keeps_leads stores) moves).tasks i operation rest htask).promised ⟨count, hends⟩

/-- Every effect of a task that was started later came upon the world as it was at some time since,
and was answered as that world was. -/
theorem replied_later (hnumbered : ∀ event ∈ s.world.log, event.task < s.tasks.length)
    (hlater : s.tasks.length ≤ i) {event : Event}
    (hevent : event ∈ (s.after stores moves).world.past i) :
    ∃ before chance, before <+: moves ∧
      event.reply = (s.after stores before).world.reply stores chance event.effect ∧
      (s.after stores before).world.past i ++ [event] <+: (s.after stores moves).world.past i := by
  obtain ⟨hlog, rfl⟩ := World.mem_past_iff.mp hevent
  rcases mem_log_after hlog with hold | ⟨before, chance, hbefore, hreply, hgrown⟩
  · exact absurd (hnumbered _ hold) (Nat.not_lt.mpr hlater)
  · refine ⟨before, chance, hbefore, hreply, ?_⟩
    have hpast := hgrown.filter (·.task = event.task)
    simpa [World.past] using hpast

/-- Every effect of a task came upon the world as it was at some time, and was answered so. -/
theorem replied {event : Event} (hevent : event ∈ (run stores moves).world.past i) :
    ∃ before chance, before <+: moves ∧
      event.reply = (run stores before).world.reply stores chance event.effect := by
  obtain ⟨before, chance, hbefore, hreply, -⟩ := replied_later
    (s := initial) (fun _ hnone => (List.not_mem_nil hnone).elim) (Nat.zero_le i) hevent
  exact ⟨before, chance, hbefore, hreply⟩

/-- Whoever was told that an entry is created has entered it. -/
theorem creation_of_created {name : TableName} {key : String} {value : name.Row}
    {revision : Nat}
    (hevent : ⟨i, .table name (.create key value), .ok revision⟩ ∈ (run stores moves).world.past i) :
    .creation i name key value ∈ (run stores moves).world.past i := by
  obtain ⟨before, chance, -, hreply⟩ := replied hevent
  change Except.ok revision = World.reply _ stores chance (.table name (.create key value)) at hreply
  rcases World.create_cases _ stores chance i name key value with ⟨e, -, herror, -⟩ | ⟨-, hok, -⟩
  · rw [herror] at hreply
    cases hreply
  · rw [hok] at hreply
    cases hreply
    exact hevent

/-- What a later task is told that lists a table is what stood in it at some time since. -/
theorem listed_later (hnumbered : ∀ event ∈ s.world.log, event.task < s.tasks.length)
    (hlater : s.tasks.length ≤ i) {name : TableName} {entries : Entries name.Row}
    (hevent : ⟨i, .table name .list, .ok entries⟩ ∈ (s.after stores moves).world.past i) :
    ∃ before, before <+: moves ∧ entries = ((s.after stores before).world.tables name).entries ∧
      (s.after stores before).world.past i ++ [⟨i, .table name .list, .ok entries⟩] <+:
        (s.after stores moves).world.past i := by
  obtain ⟨before, chance, hbefore, hreply, hpast⟩ := replied_later hnumbered hlater hevent
  refine ⟨before, hbefore, ?_, hpast⟩
  change Except.ok entries = World.reply _ stores chance (.table name .list) at hreply
  rcases World.reply_list _ stores chance name with ⟨e, -, herror⟩ | hok
  · rw [herror] at hreply
    cases hreply
  · rw [hok] at hreply
    exact Except.ok.inj hreply

/-- Of two times, the one at which a task had had fewer effects is the earlier. -/
theorem prefix_of_past_lt (hfirst : first <+: moves) (hsecond : second <+: moves)
    (hlt : ((s.after stores first).world.past i).length <
      ((s.after stores second).world.past i).length) : first <+: second := by
  rcases List.prefix_or_prefix_of_prefix hfirst hsecond with hbefore | ⟨between, rfl⟩
  · exact hbefore
  · rw [after_append] at hlt
    have hgrown := (log_prefix_after stores (s.after stores second) between).filter (·.task = i)
    exact absurd hgrown.length_le (Nat.not_le.mpr hlt)

end Office

end CertAuthority
