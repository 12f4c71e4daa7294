import CertAuthority.Proofs.Office.Effects

/-!
# The course of an office

What lasts whatever moves follow: the log only grows, a task stays the task of its operation, and
one that has ended stays as it is.  A task may also be bound to end in an error, once the world has
come to a point from which it does not return.
-/

namespace CertAuthority

namespace Procedure

variable {α β : Type}

/-- Ends in an error of a kind after at most so many moves of its own, while the world is as given.
If its rounds are used up, it begins its loop anew. -/
def FailsWithin (given : World → Prop) (stores : Stores) (cause : CaError → Prop) :
    (rest loop : Procedure α) → Nat → Prop
  | .fail (.error e), _, _ => cause e
  | .fail .unfinished, loop, moves + 1 => FailsWithin given stores cause loop loop moves
  | .call e next, loop, moves + 1 =>
    ∀ w, given w → ∀ chance,
      FailsWithin given stores cause (next (w.reply stores chance e)) loop moves
  | _, _, _ => False

variable {given : World → Prop} {stores : Stores} {cause : CaError → Prop}

theorem failsWithin_error {e : CaError} (hcause : cause e) (loop : Procedure α) (moves : Nat) :
    (Procedure.fail (.error e)).FailsWithin given stores cause loop moves := by
  cases moves <;> exact hcause

theorem FailsWithin.cause_of_error {e : CaError} {loop : Procedure α} {moves : Nat}
    (hfails : (Procedure.fail (.error e)).FailsWithin given stores cause loop moves) : cause e := by
  cases moves <;> exact hfails

theorem FailsWithin.eq_fail {rest loop : Procedure α}
    (hfails : rest.FailsWithin given stores cause loop 0) :
    ∃ e, cause e ∧ rest = .fail (.error e) := by
  cases rest with
  | done a => exact hfails.elim
  | call e next => exact hfails.elim
  | fail f =>
      cases f with
      | error e => exact ⟨e, hfails, rfl⟩
      | calendar => exact hfails.elim
      | unfinished => exact hfails.elim

/-- An end that a task may have come to is a failure of the kind. -/
theorem FailsWithin.error_of_outcome {rest loop : Procedure α} {moves : Nat}
    (hfails : rest.FailsWithin given stores cause loop moves) {outcome : Except Failure α}
    (houtcome : rest.outcome? = some outcome) : ∃ e, cause e ∧ outcome = .error (.error e) := by
  cases rest with
  | done a => cases moves <;> exact hfails.elim
  | call e next => cases houtcome
  | fail f =>
      cases f with
      | error e =>
          cases houtcome
          exact ⟨e, hfails.cause_of_error, rfl⟩
      | calendar => cases moves <;> exact hfails.elim
      | unfinished => cases houtcome

theorem FailsWithin.succ {loop : Procedure α} {moves : Nat} {p : Procedure α}
    (hfails : p.FailsWithin given stores cause loop moves) :
    p.FailsWithin given stores cause loop (moves + 1) := by
  induction moves generalizing p with
  | zero =>
      cases p with
      | done a => exact hfails.elim
      | fail f =>
          cases f with
          | error e => exact hfails
          | calendar => exact hfails.elim
          | unfinished => exact hfails.elim
      | call e next => exact hfails.elim
  | succ moves ih =>
      cases p with
      | done a => exact hfails.elim
      | fail f =>
          cases f with
          | error e => exact hfails
          | calendar => exact hfails.elim
          | unfinished => exact ih hfails
      | call e next => exact fun w hgiven chance => ih (hfails w hgiven chance)

/-- Comes to an end after at most so many effects, whatever is replied. -/
def EndsWithin : Procedure α → Nat → Prop
  | .done _, _ => True
  | .fail f, _ => f ≠ .unfinished
  | .call e next, effects + 1 => ∀ reply : e.Reply, EndsWithin (next reply) effects
  | .call _ _, 0 => False

theorem EndsWithin.mono {p : Procedure α} {effects more : Nat} (hends : p.EndsWithin effects)
    (hmore : effects ≤ more) : p.EndsWithin more := by
  induction p generalizing effects more with
  | done a => trivial
  | fail f => exact hends
  | call e next ih =>
      cases effects with
      | zero => exact hends.elim
      | succ effects =>
          obtain ⟨more, rfl⟩ := Nat.exists_eq_add_of_lt hmore
          exact fun reply => ih reply (hends reply) (by omega)

theorem EndsWithin.bind {p : Procedure β} {f : β → Procedure α} {effects more : Nat}
    (hends : p.EndsWithin effects) (hf : ∀ b, (f b).EndsWithin more) :
    (p.bind f).EndsWithin (more + effects) := by
  induction p generalizing effects with
  | done b => exact (hf b).mono (Nat.le_add_right _ _)
  | fail e => exact hends
  | call e next ih =>
      cases effects with
      | zero => exact hends.elim
      | succ effects => exact fun reply => ih reply (hends reply)

theorem endsWithin_query (name : TableName) (call : TableCall name.Row) :
    (query name call).EndsWithin 1 := by
  intro reply
  cases reply with
  | ok payload => trivial
  | error e => exact nofun

theorem EndsWithin.ensuring {p : Procedure α} {effects : Nat} (hends : p.EndsWithin effects)
    (last : Effect) : (p.ensuring last).EndsWithin (effects + 1) := by
  induction p generalizing effects with
  | done a => exact fun _ => trivial
  | fail f => exact fun _ => hends
  | call e next ih =>
      cases effects with
      | zero => exact hends.elim
      | succ effects => exact fun reply => ih reply (hends reply)

/-- What is left of a procedure, and of the world, after effects with nothing in between. -/
def alone (stores : Stores) (task : Nat) : Procedure α → List Chance → World → Procedure α × World
  | .call e next, chance :: chances, w =>
    alone stores task (next (w.reply stores chance e)) chances (w.after stores chance task e)
  | rest, _, w => (rest, w)

theorem alone_of_ended {rest : Procedure α} (hended : rest.outcome?.isSome) (task : Nat)
    (chances : List Chance) (w : World) : rest.alone stores task chances w = (rest, w) := by
  cases rest with
  | done a => rfl
  | fail f => rfl
  | call e next => cases hended

/-- A bound on the moves that a task has still to make, while the world is as given.  One whose
rounds are used up begins its loop anew. -/
structure Countdown (given : World → Prop) (stores : Stores) (loop : Procedure α)
    (within : Procedure α → Nat → Prop) : Prop where
  call : ∀ e next count, within (.call e next) count → 0 < count ∧
    ∀ w, given w → ∀ chance, within (next (w.reply stores chance e)) (count - 1)
  again : ∀ count, within (.fail .unfinished) count → 0 < count ∧ within loop (count - 1)
  ended : ∀ rest count, rest.outcome?.isSome → within rest count → within rest (count - 1)

theorem countdown_failsWithin (loop : Procedure α) : Countdown given stores loop
    fun rest count => rest.FailsWithin given stores cause loop count where
  call := by
    intro e next count hfails
    cases count with
    | zero => exact hfails.elim
    | succ count => exact ⟨Nat.succ_pos count, hfails⟩
  again := by
    intro count hfails
    cases count with
    | zero => exact hfails.elim
    | succ count => exact ⟨Nat.succ_pos count, hfails⟩
  ended := by
    intro rest count hended hfails
    cases rest with
    | done a => cases count <;> exact hfails.elim
    | call e next => cases hended
    | fail f =>
        cases f with
        | error e => exact failsWithin_error hfails.cause_of_error _ _
        | calendar => cases count <;> exact hfails.elim
        | unfinished => cases hended

theorem countdown_endsWithin (stores : Stores) (loop : Procedure α) :
    Countdown (fun _ => True) stores loop EndsWithin where
  call := by
    intro e next count hends
    cases count with
    | zero => exact hends.elim
    | succ count => exact ⟨Nat.succ_pos count, fun w _ chance => hends _⟩
  again := fun count hends => absurd rfl hends
  ended := by
    intro rest count hended hends
    cases rest with
    | done a => trivial
    | call e next => cases hended
    | fail f => exact hends

/-- What a task has ended with is left within any bound on the way there. -/
theorem Countdown.outcome_of_zero {loop : Procedure α} {within : Procedure α → Nat → Prop}
    (hcountdown : Countdown given stores loop within) {rest : Procedure α}
    (hwithin : within rest 0) : rest.outcome?.isSome := by
  cases rest with
  | done a => rfl
  | call e next => exact absurd (hcountdown.call e next 0 hwithin).1 (Nat.lt_irrefl 0)
  | fail f =>
      cases f with
      | error e => rfl
      | calendar => rfl
      | unfinished => exact absurd (hcountdown.again 0 hwithin).1 (Nat.lt_irrefl 0)

end Procedure

namespace Office

variable {I : Interface} {stores : Stores} {s : Office I}

theorem log_prefix_act (stores : Stores) (s : Office I) (move : Move I) :
    s.world.log <+: (s.act stores move).world.log := by
  cases move with
  | start operation => exact List.prefix_refl _
  | advance i chance =>
      simp only [act, advance]
      split
      · exact World.log_prefix_after _ _ _ _ _
      · exact List.prefix_refl _
      · exact List.prefix_refl _

theorem log_prefix_after (stores : Stores) (s : Office I) (moves : List (Move I)) :
    s.world.log <+: (s.after stores moves).world.log := by
  induction moves generalizing s with
  | nil => exact List.prefix_refl _
  | cons move moves ih => exact (log_prefix_act stores s move).trans (ih (s.act stores move))

theorem mem_log_act {event : Event} {move : Move I}
    (hevent : event ∈ (s.act stores move).world.log) :
    event ∈ s.world.log ∨ (s.act stores move).world.log = s.world.log ++ [event] ∧
      ∃ chance, event.reply = s.world.reply stores chance event.effect := by
  cases move with
  | start operation => exact .inl hevent
  | advance i chance =>
      simp only [act, advance] at hevent ⊢
      split at hevent
      · rcases List.mem_append.mp hevent with hold | hnew
        · exact .inl hold
        · obtain rfl := List.mem_singleton.mp hnew
          exact .inr ⟨rfl, chance, rfl⟩
      · exact .inl hevent
      · exact .inl hevent

/-- An event that is new came upon the world as it was at some time in between, and was answered as
that world was. -/
theorem mem_log_after {event : Event} {moves : List (Move I)}
    (hevent : event ∈ (s.after stores moves).world.log) :
    event ∈ s.world.log ∨ ∃ before chance, before <+: moves ∧
      event.reply = (s.after stores before).world.reply stores chance event.effect ∧
      (s.after stores before).world.log ++ [event] <+: (s.after stores moves).world.log := by
  induction moves generalizing s with
  | nil => exact .inl hevent
  | cons move moves ih =>
      rcases ih hevent with hlater | ⟨before, chance, hbefore, hreply, hlog⟩
      · rcases mem_log_act hlater with hold | ⟨hlog, chance, hreply⟩
        · exact .inl hold
        · refine .inr ⟨[], chance, List.nil_prefix, hreply, ?_⟩
          change s.world.log ++ [event] <+: _
          rw [← hlog]
          exact log_prefix_after stores _ moves
      · exact .inr ⟨move :: before, chance, (List.prefix_cons_inj move).mpr hbefore, hreply, hlog⟩

theorem advance_call (stores : Stores) {i : Nat} {operation : I.Operation} {e : Effect}
    {next : e.Reply → Procedure (I.Result operation)}
    (htask : s.tasks[i]? = some ⟨operation, .call e next⟩) (chance : Chance) :
    s.advance stores i chance = ⟨s.world.after stores chance i e,
      s.tasks.set i ⟨operation, next (s.world.reply stores chance e)⟩⟩ := by
  simp only [advance, htask]

theorem task_start (stores : Stores) (s : Office I) (operation : I.Operation) :
    (s.act stores (.start operation)).tasks[s.tasks.length]? =
      some ⟨operation, I.procedure operation⟩ :=
  List.getElem?_concat_length

theorem advance_unfinished {i : Nat} {operation : I.Operation}
    (htask : s.tasks[i]? = some ⟨operation, .fail .unfinished⟩) (chance : Chance) :
    s.advance stores i chance =
      { s with tasks := s.tasks.set i ⟨operation, I.procedure operation⟩ } := by
  simp only [advance, htask]

theorem advance_ended {i : Nat} {operation : I.Operation}
    {rest : Procedure (I.Result operation)} (htask : s.tasks[i]? = some ⟨operation, rest⟩)
    (hended : rest.outcome?.isSome) (chance : Chance) : s.advance stores i chance = s := by
  cases rest with
  | done a => simp only [advance, htask]
  | fail f =>
      cases f with
      | error e => simp only [advance, htask]
      | calendar => simp only [advance, htask]
      | unfinished => cases hended
  | call e next => cases hended

theorem tasks_advance_of_ne {i j : Nat} (hj : j ≠ i) (chance : Chance) :
    (s.advance stores i chance).tasks[j]? = s.tasks[j]? := by
  unfold advance
  split
  · exact List.getElem?_set_ne (Ne.symm hj)
  · exact List.getElem?_set_ne (Ne.symm hj)
  · rfl

theorem found_set_self {tasks : List (Task I)} {i : Nat} {task : Task I}
    (htask : tasks[i]? = some task) (found : Task I) : (tasks.set i found)[i]? = some found :=
  List.getElem?_set_self (List.getElem?_eq_some_iff.mp htask).1

/-- A task has ended with an effect if and only if what follows upon the reply has. -/
theorem ended_advance_iff {i : Nat} {operation : I.Operation} {e : Effect}
    {next : e.Reply → Procedure (I.Result operation)}
    (htask : s.tasks[i]? = some ⟨operation, .call e next⟩) (chance : Chance)
    (outcome : Except Failure (I.Result operation)) :
    (s.advance stores i chance).Ended i operation outcome ↔
      (next (s.world.reply stores chance e)).outcome? = some outcome := by
  rw [advance_call stores htask]
  have hlater := found_set_self htask ⟨operation, next (s.world.reply stores chance e)⟩
  constructor
  · rintro ⟨rest, hrest, houtcome⟩
    cases hlater.symm.trans hrest
    exact houtcome
  · exact fun houtcome => ⟨_, hlater, houtcome⟩

/-- A task stays the task of its operation, and goes on by its own moves only. -/
theorem task_act (stores : Stores) {i : Nat} {operation : I.Operation}
    {rest : Procedure (I.Result operation)}
    (htask : s.tasks[i]? = some ⟨operation, rest⟩) (move : Move I) :
    ∃ later, (s.act stores move).tasks[i]? = some ⟨operation, later⟩ ∧
      (move.isBy i = false ∨ rest.outcome?.isSome → later = rest) := by
  cases move with
  | start other =>
      have hbound : i < s.tasks.length := (List.getElem?_eq_some_iff.mp htask).1
      exact ⟨rest, by rw [act, List.getElem?_append_left hbound, htask], fun _ => rfl⟩
  | advance j chance =>
      by_cases hj : j = i
      · subst hj
        by_cases hended : rest.outcome?.isSome
        · exact ⟨rest, by rw [act, advance_ended htask hended, htask], fun _ => rfl⟩
        · have hby : (Move.advance j chance : Move I).isBy j = true := by simp [Move.isBy]
          cases rest with
          | call e next =>
              refine ⟨_, by rw [act, advance_call stores htask]; exact found_set_self htask _, ?_⟩
              simp [hby, Procedure.outcome?]
          | done a => exact absurd rfl hended
          | fail f =>
              cases f with
              | unfinished =>
                  refine ⟨_, by rw [act, advance_unfinished htask]; exact found_set_self htask _,
                    ?_⟩
                  simp [hby, Procedure.outcome?]
              | error e => exact absurd rfl hended
              | calendar => exact absurd rfl hended
      · exact ⟨rest, by rw [act, tasks_advance_of_ne (Ne.symm hj), htask], fun _ => rfl⟩

/-- A task stays the task of its operation, whatever moves follow. -/
theorem task_after (stores : Stores) {i : Nat} {operation : I.Operation}
    {rest : Procedure (I.Result operation)}
    (htask : s.tasks[i]? = some ⟨operation, rest⟩) (moves : List (Move I)) :
    ∃ later, (s.after stores moves).tasks[i]? = some ⟨operation, later⟩ ∧
      (rest.outcome?.isSome → later = rest) := by
  induction moves generalizing s rest with
  | nil => exact ⟨rest, htask, fun _ => rfl⟩
  | cons move moves ih =>
      obtain ⟨next, hnext, hkept⟩ := task_act stores htask move
      obtain ⟨later, hlater, hlast⟩ := ih hnext
      refine ⟨later, hlater, fun hended => ?_⟩
      have hsame : next = rest := hkept (.inr hended)
      rw [hlast (by rw [hsame]; exact hended), hsame]

/-- A task that has ended stays as it is. -/
theorem Ended.after {i : Nat} {operation : I.Operation}
    {outcome : Except Failure (I.Result operation)} (hended : s.Ended i operation outcome)
    (stores : Stores) (moves : List (Move I)) :
    (s.after stores moves).Ended i operation outcome := by
  obtain ⟨rest, htask, houtcome⟩ := hended
  obtain ⟨later, hlater, hkept⟩ := task_after stores htask moves
  have hsame : later = rest := hkept (by rw [houtcome]; rfl)
  exact ⟨rest, by rw [← hsame]; exact hlater, houtcome⟩

/-- Each move of its own brings a task nearer to its end. -/
theorem countdown_act {given : World → Prop} {i : Nat} {operation : I.Operation}
    {within : Procedure (I.Result operation) → Nat → Prop}
    (hcountdown : Procedure.Countdown given stores (I.procedure operation) within)
    {rest : Procedure (I.Result operation)} {count : Nat}
    (htask : s.tasks[i]? = some ⟨operation, rest⟩) (hwithin : within rest count)
    (hgiven : given s.world) (move : Move I) :
    ∃ later, (s.act stores move).tasks[i]? = some ⟨operation, later⟩ ∧
      within later (if move.isBy i then count - 1 else count) := by
  by_cases hby : move.isBy i
  · rw [if_pos hby]
    cases move with
    | start other => cases hby
    | advance j chance =>
        obtain rfl : j = i := by simpa [Move.isBy] using hby
        rw [act]
        by_cases hended : rest.outcome?.isSome
        · rw [advance_ended htask hended]
          exact ⟨rest, htask, hcountdown.ended rest count hended hwithin⟩
        cases rest with
        | done a => exact absurd rfl hended
        | call e next =>
            rw [advance_call stores htask]
            exact ⟨_, found_set_self htask _, (hcountdown.call e next count hwithin).2 _ hgiven _⟩
        | fail f =>
            cases f with
            | error e => exact absurd rfl hended
            | calendar => exact absurd rfl hended
            | unfinished =>
                rw [advance_unfinished htask]
                exact ⟨_, found_set_self htask _, (hcountdown.again count hwithin).2⟩
  · rw [if_neg hby]
    obtain ⟨later, hlater, hkept⟩ := task_act stores htask move
    obtain rfl : later = rest := hkept (.inl (by simpa using hby))
    exact ⟨later, hlater, hwithin⟩

/-- A task that counts down has nothing left to do once it has had its moves. -/
theorem task_of_countdown {given : World → Prop} {i : Nat} {operation : I.Operation}
    {within : Procedure (I.Result operation) → Nat → Prop}
    (hcountdown : Procedure.Countdown given stores (I.procedure operation) within)
    {rest : Procedure (I.Result operation)} {count : Nat} (moves : List (Move I))
    (htask : s.tasks[i]? = some ⟨operation, rest⟩) (hwithin : within rest count)
    (hgiven : ∀ before, before <+: moves → given (s.after stores before).world)
    (hcount : count ≤ moves.countP (Move.isBy i)) :
    ∃ later, (s.after stores moves).tasks[i]? = some ⟨operation, later⟩ ∧ within later 0 := by
  induction moves generalizing s rest count with
  | nil =>
      obtain rfl : count = 0 := by simpa using hcount
      exact ⟨rest, htask, hwithin⟩
  | cons move moves ih =>
      obtain ⟨later, hlater, hless⟩ := countdown_act hcountdown htask hwithin
        (hgiven [] List.nil_prefix) move
      apply ih hlater hless
      · intro before hbefore
        exact hgiven (move :: before) ((List.prefix_cons_inj move).mpr hbefore)
      · by_cases hby : move.isBy i
        · rw [List.countP_cons_of_pos hby] at hcount
          rw [if_pos hby]
          omega
        · rw [List.countP_cons_of_neg hby] at hcount
          rwa [if_neg hby]

/-- A task that is bound to fail has failed once it has had its moves. -/
theorem ended_of_failsWithin {given : World → Prop} {cause : CaError → Prop} {i : Nat}
    {operation : I.Operation} {rest : Procedure (I.Result operation)} {count : Nat}
    (moves : List (Move I))
    (htask : s.tasks[i]? = some ⟨operation, rest⟩)
    (hfails : rest.FailsWithin given stores cause (I.procedure operation) count)
    (hgiven : ∀ before, before <+: moves → given (s.after stores before).world)
    (hcount : count ≤ moves.countP (Move.isBy i)) :
    ∃ e, cause e ∧ (s.after stores moves).Ended i operation (.error (.error e)) := by
  obtain ⟨later, hlater, hzero⟩ := task_of_countdown (Procedure.countdown_failsWithin _) moves htask
    hfails hgiven hcount
  obtain ⟨e, hcause, rfl⟩ := hzero.eq_fail
  exact ⟨e, hcause, .fail (.error e), hlater, rfl⟩

/-- A task that has its moves with nothing in between, and comes to an end with them, is done
alone. -/
theorem after_of_alone {i : Nat} {operation : I.Operation}
    {rest last : Procedure (I.Result operation)} {later : World} {chances : List Chance}
    (htask : s.tasks[i]? = some ⟨operation, rest⟩)
    (halone : rest.alone stores i chances s.world = (last, later))
    (hended : last.outcome?.isSome) :
    s.after stores (chances.map (.advance i)) = ⟨later, s.tasks.set i ⟨operation, last⟩⟩ := by
  induction chances generalizing s rest with
  | nil =>
      have hnone : rest.alone stores i [] s.world = (rest, s.world) := by cases rest <;> rfl
      cases hnone.symm.trans halone
      obtain ⟨hbound, hget⟩ := List.getElem?_eq_some_iff.mp htask
      rw [← hget, List.set_getElem_self]
      rfl
  | cons chance chances ih =>
      by_cases hover : rest.outcome?.isSome
      · rw [Procedure.alone_of_ended hover, ← Procedure.alone_of_ended hover i chances] at halone
        rw [← ih htask halone]
        change (s.advance stores i chance).after stores _ = _
        rw [advance_ended htask hover]
      · cases rest with
        | call e next =>
            have hnext := found_set_self htask ⟨operation, next (s.world.reply stores chance e)⟩
            change (s.advance stores i chance).after stores _ = _
            rw [advance_call stores htask, ih hnext halone, List.set_set]
        -- Nothing else has no outcome but a procedure that is unfinished, which stays so.
        | done a => exact absurd rfl hover
        | fail f =>
            cases halone
            exact absurd hended hover

/-- How a task has ended that is started and has its moves with nothing in between, and what it has
made of the world. -/
theorem ended_of_alone {operation : I.Operation} {chances : List Chance}
    {rest : Procedure (I.Result operation)} {later : World}
    (halone : (I.procedure operation).alone stores s.tasks.length chances s.world = (rest, later))
    {outcome : Except Failure (I.Result operation)} (houtcome : rest.outcome? = some outcome) :
    (s.after stores (.start operation :: chances.map (.advance s.tasks.length))).world = later ∧
      (s.after stores (.start operation :: chances.map (.advance s.tasks.length))).Ended
        s.tasks.length operation outcome := by
  have hstarted := task_start stores s operation
  have hafter : s.after stores (.start operation :: chances.map (.advance s.tasks.length)) = _ :=
    after_of_alone hstarted halone (by rw [houtcome]; rfl)
  rw [hafter]
  exact ⟨rfl, rest, found_set_self hstarted _, houtcome⟩

/-- A move adds no task but the one that it starts. -/
theorem length_tasks_after (stores : Stores) (s : Office I) (moves : List (Move I)) :
    (s.after stores moves).tasks.length = s.tasks.length + moves.countP Move.isStart := by
  induction moves generalizing s with
  | nil => rfl
  | cons move moves ih =>
      change ((s.act stores move).after stores moves).tasks.length = _
      rw [ih, List.countP_cons]
      cases move with
      | start operation =>
          simp only [act, List.length_append, List.length_singleton, Move.isStart, if_true]
          omega
      | advance i chance =>
          have hsame : (s.advance stores i chance).tasks.length = s.tasks.length := by
            unfold advance
            split
            · exact List.length_set
            · exact List.length_set
            · rfl
          simp only [act, hsame, Move.isStart, Bool.false_eq_true, if_false, Nat.add_zero]

/-- A task that comes to an end has come to it once it has had its moves. -/
theorem ended_of_endsWithin {i : Nat} {operation : I.Operation}
    {rest : Procedure (I.Result operation)} {count : Nat} (moves : List (Move I))
    (htask : s.tasks[i]? = some ⟨operation, rest⟩) (hends : rest.EndsWithin count)
    (hcount : count ≤ moves.countP (Move.isBy i)) :
    ∃ outcome, (s.after stores moves).Ended i operation outcome := by
  have hcountdown := Procedure.countdown_endsWithin stores (I.procedure operation)
  obtain ⟨later, hlater, hzero⟩ := task_of_countdown hcountdown moves htask hends
    (fun _ _ => trivial) hcount
  obtain ⟨outcome, houtcome⟩ := Option.isSome_iff_exists.mp (hcountdown.outcome_of_zero hzero)
  exact ⟨outcome, later, hlater, houtcome⟩

/-- That what the tasks of an operation have still to do takes at most so many effects. -/
def Bounded (s : Office I) (operation : I.Operation) (count : Nat) : Prop :=
  ∀ (i : Nat) (rest : Procedure (I.Result operation)),
    s.tasks[i]? = some ⟨operation, rest⟩ → rest.EndsWithin count

theorem bounded_act {operation : I.Operation} {count : Nat}
    (hends : (I.procedure operation).EndsWithin count) (hbounded : s.Bounded operation count)
    (move : Move I) : (s.act stores move).Bounded operation count := by
  intro i rest htask
  cases move with
  | start other =>
      rcases found_of_append htask with hold | ⟨-, hnew⟩
      · exact hbounded i rest hold
      · cases hnew
        exact hends
  | advance j chance =>
      simp only [act, advance] at htask
      split at htask
      · next other e next hcall =>
          rcases found_of_set htask with ⟨-, hself⟩ | ⟨-, hold⟩
          · cases hself
            cases count with
            | zero => exact (hbounded j _ hcall).elim
            | succ count => exact (hbounded j _ hcall _).mono (Nat.le_succ count)
          · exact hbounded i rest hold
      · rcases found_of_set htask with ⟨-, hself⟩ | ⟨-, hold⟩
        · cases hself
          exact hends
        · exact hbounded i rest hold
      · exact hbounded i rest htask

theorem bounded_after {operation : I.Operation} {count : Nat}
    (hends : (I.procedure operation).EndsWithin count) (hbounded : s.Bounded operation count)
    (moves : List (Move I)) : (s.after stores moves).Bounded operation count := by
  induction moves generalizing s with
  | nil => exact hbounded
  | cons move moves ih => exact ih (bounded_act hends hbounded move)

/-- A task of an operation that comes to an end has come to it once it has had its moves. -/
theorem ended_run {operation : I.Operation} {count : Nat}
    (hends : (I.procedure operation).EndsWithin count) {moves : List (Move I)} {i : Nat}
    {rest : Procedure (I.Result operation)}
    (htask : (run stores moves).tasks[i]? = some ⟨operation, rest⟩) (further : List (Move I))
    (hcount : count ≤ further.countP (Move.isBy i)) :
    ∃ outcome, (run stores (moves ++ further)).Ended i operation outcome := by
  have hinitial : (initial : Office I).Bounded operation count := nofun
  have hrest := bounded_after hends hinitial moves i rest htask
  rw [run_append]
  exact ended_of_endsWithin further htask hrest hcount

end Office

end CertAuthority
