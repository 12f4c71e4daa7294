import CertAuthority.Proofs.Office.Effects

/-!
# Conduct of a task among others

A law is what must hold of the world at all times.  A procedure keeps a law if each of its effects
leaves the law in force, wherever others may have brought the world before that effect.  On the way
it may promise something of its own: of the effects that it has had, and of what it has still to do.

If every operation of an interface keeps the law from its start on, the law is in force after all
moves, and every task stands by its promise.
-/

namespace CertAuthority

namespace World

/-- That a task of a world may find another one, others having acted in between. -/
structure Precedes (w : World) (task : Nat) (found : World) : Prop where
  log : w.log <+: found.log
  past : found.past task = w.past task

theorem Precedes.refl (w : World) (task : Nat) : w.Precedes task w :=
  ⟨List.prefix_refl _, rfl⟩

theorem Precedes.trans {first second third : World} {task : Nat}
    (hfirst : first.Precedes task second) (hsecond : second.Precedes task third) :
    first.Precedes task third :=
  ⟨hfirst.log.trans hsecond.log, hsecond.past.trans hfirst.past⟩

theorem Precedes.past_after {w found : World} {task : Nat} (hfound : w.Precedes task found)
    (stores : Stores) (chance : Chance) (e : Effect) :
    (found.after stores chance task e).past task =
      w.past task ++ [⟨task, e, found.reply stores chance e⟩] := by
  rw [World.past_after, hfound.past]

theorem precedes_after (w : World) (stores : Stores) (chance : Chance) {task other : Nat}
    (hother : other ≠ task) (e : Effect) : w.Precedes task (w.after stores chance other e) :=
  ⟨log_prefix_after w stores chance other e, past_after_of_ne w stores chance hother e⟩

end World

/-- What a task says of the effects that it has had and of what it has still to do. -/
abbrev Promise (α : Type) := List Event → Procedure α → Prop

namespace Procedure

variable {α β : Type} {law : World → Prop} {stores : Stores} {task : Nat}
variable {promise : Promise α}

/-- Keeps a law and a promise from a world on, whatever others do in between. -/
def Keeps (law : World → Prop) (stores : Stores) (task : Nat) (promise : Promise α) :
    Procedure α → World → Prop
  | .done a, w => promise (w.past task) (.done a)
  | .fail f, w => promise (w.past task) (.fail f)
  | .call e next, w =>
    promise (w.past task) (.call e next) ∧
      ∀ found, w.Precedes task found → found.Reachable stores → law found → ∀ chance,
        law (found.after stores chance task e) ∧
          Keeps law stores task promise (next (found.reply stores chance e))
            (found.after stores chance task e)

theorem Keeps.promised {p : Procedure α} {w : World}
    (hkeeps : p.Keeps law stores task promise w) : promise (w.past task) p := by
  cases p with
  | done a => exact hkeeps
  | fail f => exact hkeeps
  | call e next => exact hkeeps.1

/-- What others do in between takes nothing away. -/
theorem Keeps.of_precedes {p : Procedure α} {w found : World}
    (hkeeps : p.Keeps law stores task promise w) (hfound : w.Precedes task found) :
    p.Keeps law stores task promise found := by
  cases p with
  | done a => simpa only [Keeps, hfound.past] using hkeeps
  | fail f => simpa only [Keeps, hfound.past] using hkeeps
  | call e next =>
      refine ⟨by simpa only [hfound.past] using hkeeps.1, ?_⟩
      intro later hlater
      exact hkeeps.2 later (hfound.trans hlater)

theorem Keeps.mono {weaker : Promise α} (hweaker : ∀ past p, promise past p → weaker past p)
    {p : Procedure α} {w : World} (hkeeps : p.Keeps law stores task promise w) :
    p.Keeps law stores task weaker w := by
  induction p generalizing w with
  | done a => exact hweaker _ _ hkeeps
  | fail f => exact hweaker _ _ hkeeps
  | call e next ih =>
      refine ⟨hweaker _ _ hkeeps.1, fun found hfound hreachable hlaw chance => ?_⟩
      obtain ⟨hafter, hnext⟩ := hkeeps.2 found hfound hreachable hlaw chance
      exact ⟨hafter, ih _ hnext⟩

theorem Keeps.and {other : Promise α} {p : Procedure α} {w : World}
    (hkeeps : p.Keeps law stores task promise w) (hother : p.Keeps law stores task other w) :
    p.Keeps law stores task (fun past rest => promise past rest ∧ other past rest) w := by
  induction p generalizing w with
  | done a => exact ⟨hkeeps, hother⟩
  | fail f => exact ⟨hkeeps, hother⟩
  | call e next ih =>
      refine ⟨⟨hkeeps.1, hother.1⟩, fun found hfound hreachable hlaw chance => ?_⟩
      obtain ⟨hafter, hnext⟩ := hkeeps.2 found hfound hreachable hlaw chance
      exact ⟨hafter, ih _ hnext (hother.2 found hfound hreachable hlaw chance).2⟩

/-- A promise that takes no law may be made in addition. -/
theorem Keeps.and_lawless {other : Promise α} {p : Procedure α} {w : World}
    (hkeeps : p.Keeps law stores task promise w)
    (hother : p.Keeps (fun _ => True) stores task other w) :
    p.Keeps law stores task (fun past rest => promise past rest ∧ other past rest) w := by
  induction p generalizing w with
  | done a => exact ⟨hkeeps, hother⟩
  | fail e => exact ⟨hkeeps, hother⟩
  | call e next ih =>
      refine ⟨⟨hkeeps.1, hother.1⟩, fun found hfound hreachable hlaw chance => ?_⟩
      obtain ⟨hafter, hnext⟩ := hkeeps.2 found hfound hreachable hlaw chance
      exact ⟨hafter, ih _ hnext (hother.2 found hfound hreachable trivial chance).2⟩

/-- A procedure that goes on with what another one gives.  As long as that one has given no value,
what it says of itself has to be as good as the promise of the whole. -/
theorem Keeps.bind {first : Promise β} {p : Procedure β} {f : β → Procedure α} {w : World}
    (hp : p.Keeps law stores task first w) (hreachable : w.Reachable stores) (hlaw : law w)
    (hfirst : ∀ past rest, first past rest → (∀ b, rest ≠ .done b) → promise past (rest.bind f))
    (hf : ∀ b (later : World), w.log <+: later.log → later.Reachable stores → law later →
      first (later.past task) (.done b) → (f b).Keeps law stores task promise later) :
    (p.bind f).Keeps law stores task promise w := by
  induction p generalizing w with
  | done b => exact hf b w (List.prefix_refl _) hreachable hlaw hp
  | fail e => exact hfirst _ _ hp nofun
  | call e next ih =>
      refine ⟨hfirst _ _ hp.1 nofun, fun found hfound hfoundReachable hfoundLaw chance => ?_⟩
      obtain ⟨hafter, hnext⟩ := hp.2 found hfound hfoundReachable hfoundLaw chance
      refine ⟨hafter, ih _ hnext (hfoundReachable.after chance task e) hafter ?_⟩
      intro b later hlog
      exact hf b later ((hfound.log.trans (found.log_prefix_after stores chance task e)).trans hlog)

end Procedure

/-- What each operation of an interface promises, given the number of its task. -/
abbrev Interface.Promises (I : Interface) :=
  (operation : I.Operation) → (task : Nat) → Promise (I.Result operation)

/-- Every operation of an interface keeps a law and a promise of its own, from its start on and
each time that it begins its loop anew. -/
structure Interface.Keeps (I : Interface) (law : World → Prop) (stores : Stores)
    (promise : I.Promises) : Prop where
  empty : law World.empty
  start : ∀ operation task (w : World), w.Reachable stores → law w → w.past task = [] →
    (I.procedure operation).Keeps law stores task (promise operation task) w
  again : ∀ operation task (w : World), w.Reachable stores → law w →
    promise operation task (w.past task) (.fail .unfinished) →
      (I.procedure operation).Keeps law stores task (promise operation task) w

namespace Office

variable {I : Interface} {law : World → Prop} {stores : Stores} {promise : I.Promises}

/-- The law is in force, and every task keeps it from here on. -/
structure Abides (law : World → Prop) (stores : Stores) (promise : I.Promises)
    (s : Office I) : Prop where
  lawful : law s.world
  reachable : s.world.Reachable stores
  /-- Only tasks that were started have had effects. -/
  numbered : ∀ event ∈ s.world.log, event.task < s.tasks.length
  tasks : ∀ (i : Nat) (operation : I.Operation) (rest : Procedure (I.Result operation)),
    s.tasks[i]? = some ⟨operation, rest⟩ → rest.Keeps law stores i (promise operation i) s.world

theorem abides_initial (hkeeps : I.Keeps law stores promise) :
    (initial : Office I).Abides law stores promise where
  lawful := hkeeps.empty
  reachable := .empty
  numbered := by simp [initial, World.empty]
  tasks := by simp [initial]

theorem Abides.start (hkeeps : I.Keeps law stores promise) {s : Office I}
    (habides : s.Abides law stores promise) (operation : I.Operation) :
    (s.act stores (.start operation)).Abides law stores promise where
  lawful := habides.lawful
  reachable := habides.reachable
  numbered := by
    intro event hevent
    have hlt := habides.numbered event hevent
    simp only [act, List.length_append, List.length_singleton]
    omega
  tasks := by
    intro i other rest htask
    rcases found_of_append htask with hold | ⟨rfl, hnew⟩
    · exact habides.tasks i other rest hold
    · cases hnew
      apply hkeeps.start _ _ _ habides.reachable habides.lawful
      -- No event bears the number of a task that was not there.
      refine List.filter_eq_nil_iff.mpr fun event hevent => ?_
      have hlt := habides.numbered event hevent
      simp only [decide_eq_true_eq]
      omega

/-- What a move of one task leaves of the others. -/
theorem Abides.set {s : Office I} (habides : s.Abides law stores promise) {i : Nat}
    {operation : I.Operation} {rest : Procedure (I.Result operation)} {w : World}
    (hlaw : law w) (hreachable : w.Reachable stores)
    (hnumbered : ∀ event ∈ w.log, event.task < s.tasks.length)
    (hothers : ∀ j, j ≠ i → s.world.Precedes j w)
    (hown : rest.Keeps law stores i (promise operation i) w) :
    (Office.mk w (s.tasks.set i ⟨operation, rest⟩)).Abides law stores promise where
  lawful := hlaw
  reachable := hreachable
  numbered := by simpa using hnumbered
  tasks := by
    intro j other remaining htask
    rcases found_of_set htask with ⟨rfl, hself⟩ | ⟨hj, hold⟩
    · cases hself
      exact hown
    · exact (habides.tasks j other remaining hold).of_precedes (hothers j hj)

theorem Abides.advance (hkeeps : I.Keeps law stores promise) {s : Office I}
    (habides : s.Abides law stores promise) (i : Nat) (chance : Chance) :
    (s.advance stores i chance).Abides law stores promise := by
  unfold Office.advance
  split
  · next operation e next htask =>
      have hbound : i < s.tasks.length := (List.getElem?_eq_some_iff.mp htask).1
      obtain ⟨hlaw, hrest⟩ := (habides.tasks i operation _ htask).2 s.world
        (World.Precedes.refl _ _) habides.reachable habides.lawful chance
      apply habides.set hlaw (habides.reachable.after chance i e) _ _ hrest
      · intro event hevent
        simp only [World.after, List.mem_append, List.mem_singleton] at hevent
        rcases hevent with hold | rfl
        · exact habides.numbered event hold
        · exact hbound
      · intro j hj
        exact World.precedes_after _ _ _ (Ne.symm hj) _
  · next operation htask =>
      have hpromise := (habides.tasks i operation _ htask).promised
      exact habides.set habides.lawful habides.reachable habides.numbered
        (fun j _ => World.Precedes.refl _ _)
        (hkeeps.again operation i _ habides.reachable habides.lawful hpromise)
  · exact habides

theorem Abides.act (hkeeps : I.Keeps law stores promise) {s : Office I}
    (habides : s.Abides law stores promise) (move : Move I) :
    (s.act stores move).Abides law stores promise := by
  cases move with
  | start operation => exact habides.start hkeeps operation
  | advance i chance => exact habides.advance hkeeps i chance

theorem Abides.after (hkeeps : I.Keeps law stores promise) {s : Office I}
    (habides : s.Abides law stores promise) (moves : List (Move I)) :
    (s.after stores moves).Abides law stores promise := by
  induction moves generalizing s with
  | nil => exact habides
  | cons move moves ih => exact ih (habides.act hkeeps move)

/-- If every operation keeps the law, it is in force after all moves. -/
theorem abides_run (hkeeps : I.Keeps law stores promise) (moves : List (Move I)) :
    (run stores moves).Abides law stores promise :=
  (abides_initial hkeeps).after hkeeps moves

end Office

end CertAuthority
