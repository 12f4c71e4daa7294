import CertAuthority.Host
import CertAuthority.Proofs.Office.Calls

/-!
# Operations on a host

On a host many operations work at the same time on one disk.  They go on turn by turn, in any order,
and the host replies to each effect as it comes.  What the clock shows and which bytes are drawn is
up to the host.

A procedure heeds what it is told if it asks for nothing but what it may, as long as the replies are
such as they may be.  If the host keeps a law as long as it is asked nothing else, and its replies
are such then, the law is in force after all turns.
-/

namespace CertAuthority

inductive Turn (I : Interface) where
  | start (operation : I.Operation)
  | advance (task : Nat)

/-- A host with the operations that are under way on it. -/
structure Hosted (I : Interface) where
  host : Host
  tasks : List (Task I)

namespace Hosted

variable {I : Interface}

/-- Lets a task have its next effect.  A task whose rounds are used up begins its loop anew. -/
def advance (s : Hosted I) (i : Nat) : Hosted I :=
  match s.tasks[i]? with
  | some ⟨operation, .call e next⟩ =>
    ⟨(s.host.reply e).2, s.tasks.set i ⟨operation, next (s.host.reply e).1⟩⟩
  | some ⟨operation, .fail .unfinished⟩ =>
    { s with tasks := s.tasks.set i ⟨operation, I.procedure operation⟩ }
  | _ => s

def act (s : Hosted I) : Turn I → Hosted I
  | .start operation => { s with tasks := s.tasks ++ [⟨operation, I.procedure operation⟩] }
  | .advance i => s.advance i

/-- What has become of a host after some turns. -/
def after (s : Hosted I) (turns : List (Turn I)) : Hosted I :=
  turns.foldl act s

/-- That a task is about an operation and has ended in a certain way. -/
def Ended (s : Hosted I) (i : Nat) (operation : I.Operation)
    (outcome : Except Failure (I.Result operation)) : Prop :=
  ∃ rest, s.tasks[i]? = some ⟨operation, rest⟩ ∧ rest.outcome? = some outcome

theorem after_append (s : Hosted I) (turns more : List (Turn I)) :
    s.after (turns ++ more) = (s.after turns).after more :=
  List.foldl_append

/-- What a turn does: a task is begun, has an effect, begins anew, or nothing happens. -/
theorem act_cases (s : Hosted I) (turn : Turn I) :
    (∃ operation, s.act turn = ⟨s.host, s.tasks ++ [⟨operation, I.procedure operation⟩]⟩) ∨
      (∃ i operation e next, turn = .advance i ∧ s.tasks[i]? = some ⟨operation, .call e next⟩ ∧
        s.act turn =
          ⟨(s.host.reply e).2, s.tasks.set i ⟨operation, next (s.host.reply e).1⟩⟩) ∨
      (∃ i operation, s.tasks[i]? = some ⟨operation, .fail .unfinished⟩ ∧
        s.act turn = ⟨s.host, s.tasks.set i ⟨operation, I.procedure operation⟩⟩) ∨
      s.act turn = s := by
  cases turn with
  | start operation => exact .inl ⟨operation, rfl⟩
  | advance i =>
      change _ ∨ (∃ j operation e next, _ ∧ _ ∧ s.advance i = _) ∨
        (∃ j operation, _ ∧ s.advance i = _) ∨ s.advance i = s
      unfold advance
      split
      · next operation e next htask => exact .inr (.inl ⟨i, operation, e, next, rfl, htask, rfl⟩)
      · next operation htask => exact .inr (.inr (.inl ⟨i, operation, htask, rfl⟩))
      · exact .inr (.inr (.inr rfl))

/-- What every turn keeps is kept by all of them. -/
theorem after_of_act (holds : Hosted I → Prop) (hact : ∀ s turn, holds s → holds (s.act turn))
    {s : Hosted I} (hs : holds s) (turns : List (Turn I)) : holds (s.after turns) := by
  induction turns generalizing s with
  | nil => exact hs
  | cons turn turns ih => exact ih (hact s turn hs)

/-- That a law is in force, and every task stands by its promise. -/
structure Abides (law : Host → Prop)
    (promise : (operation : I.Operation) → Procedure (I.Result operation) → Prop) (s : Hosted I) :
    Prop where
  law : law s.host
  tasks : ∀ (i : Nat) (operation : I.Operation) (rest : Procedure (I.Result operation)),
    s.tasks[i]? = some ⟨operation, rest⟩ → promise operation rest

variable {law : Host → Prop}
variable {promise : (operation : I.Operation) → Procedure (I.Result operation) → Prop}

/-- A law stays in force if every operation promises something from its start on that keeps the law
and the promise with each effect. -/
theorem Abides.act (hstart : ∀ operation, promise operation (I.procedure operation))
    (hstep : ∀ h operation e next, law h → promise operation (.call e next) →
      law (h.reply e).2 ∧ promise operation (next (h.reply e).1))
    {s : Hosted I} (habides : s.Abides law promise) (turn : Turn I) :
    (s.act turn).Abides law promise := by
  rcases s.act_cases turn with ⟨operation, hact⟩ | ⟨i, operation, e, next, -, htask, hact⟩ |
    ⟨i, operation, htask, hact⟩ | hact
  · rw [hact]
    refine ⟨habides.law, fun j other rest hfound => ?_⟩
    rcases Office.found_of_append hfound with hold | ⟨-, hnew⟩
    · exact habides.tasks j other rest hold
    · cases hnew
      exact hstart operation
  · rw [hact]
    obtain ⟨hlaw, hnext⟩ := hstep s.host operation e next habides.law (habides.tasks i _ _ htask)
    refine ⟨hlaw, fun j other rest hfound => ?_⟩
    rcases Office.found_of_set hfound with ⟨-, hnew⟩ | ⟨-, hold⟩
    · cases hnew
      exact hnext
    · exact habides.tasks j other rest hold
  · rw [hact]
    refine ⟨habides.law, fun j other rest hfound => ?_⟩
    rcases Office.found_of_set hfound with ⟨-, hnew⟩ | ⟨-, hold⟩
    · cases hnew
      exact hstart operation
    · exact habides.tasks j other rest hold
  · rw [hact]
    exact habides

/-- A task that has ended does not go on. -/
theorem Ended.act {s : Hosted I} {i : Nat} {operation : I.Operation}
    {outcome : Except Failure (I.Result operation)} (hended : s.Ended i operation outcome)
    (turn : Turn I) : (s.act turn).Ended i operation outcome := by
  obtain ⟨rest, htask, houtcome⟩ := hended
  have hother {j : Nat} {found : Task I} (hfound : s.tasks[j]? = some found)
      (hgoes : found.rest.outcome? = none) (task : Task I) : (s.tasks.set j task)[i]? =
        some ⟨operation, rest⟩ := by
    rw [List.getElem?_set_ne, htask]
    rintro rfl
    cases hfound.symm.trans htask
    rw [hgoes] at houtcome
    cases houtcome
  rcases s.act_cases turn with ⟨other, hact⟩ | ⟨j, other, e, next, -, hfound, hact⟩ |
    ⟨j, other, hfound, hact⟩ | hact
  · rw [hact]
    exact ⟨rest, by rw [List.getElem?_append_left (List.getElem?_eq_some_iff.mp htask).1, htask],
      houtcome⟩
  · rw [hact]
    exact ⟨rest, hother hfound rfl _, houtcome⟩
  · rw [hact]
    exact ⟨rest, hother hfound rfl _, houtcome⟩
  · rw [hact]
    exact ⟨rest, htask, houtcome⟩

end Hosted

namespace Procedure

variable {α β : Type} {told : (e : Effect) → e.Reply → Prop} {asked : Effect → Prop}
variable {yields : α → Prop}

/-- What is run after something else goes on from there, unless that has failed. -/
theorem run_bind {σ : Type} {reply : (e : Effect) → σ → e.Reply × σ} (p : Procedure β)
    (f : β → Procedure α) (s : σ) :
    (p.bind f).run reply s = match p.run reply s with
      | (.ok b, s) => (f b).run reply s
      | (.error failure, s) => (.error failure, s) := by
  induction p generalizing s with
  | done b => rfl
  | fail e => rfl
  | call e next ih => exact ih _ _

/-- What is done at the end changes no result. -/
theorem run_ensuring {σ : Type} {reply : (e : Effect) → σ → e.Reply × σ} (p : Procedure α)
    (last : Effect) (s : σ) : ((p.ensuring last).run reply s).1 = (p.run reply s).1 := by
  induction p generalizing s with
  | done a => rfl
  | fail e => rfl
  | call e next ih => exact ih _ _

/-- Asks for nothing but what it may, as long as the replies are such as they may be; and gives a
value of a kind then, if any. -/
def Heeds (told : (e : Effect) → e.Reply → Prop) (asked : Effect → Prop) (yields : α → Prop) :
    Procedure α → Prop
  | .done a => yields a
  | .fail _ => True
  | .call e next => asked e ∧ ∀ reply, told e reply → Heeds told asked yields (next reply)

theorem Heeds.bind {first : β → Prop} {p : Procedure β} (hp : p.Heeds told asked first)
    {f : β → Procedure α} (hf : ∀ b, first b → (f b).Heeds told asked yields) :
    (p.bind f).Heeds told asked yields := by
  induction p with
  | done b => exact hf b hp
  | fail e => trivial
  | call e next ih => exact ⟨hp.1, fun reply htold => ih reply (hp.2 reply htold)⟩

theorem Heeds.mono {more : α → Prop} {p : Procedure α} (hp : p.Heeds told asked yields)
    (hmore : ∀ a, yields a → more a) : p.Heeds told asked more := by
  induction p with
  | done a => exact hmore a hp
  | fail e => trivial
  | call e next ih => exact ⟨hp.1, fun reply htold => ih reply (hp.2 reply htold)⟩

theorem Heeds.ensuring {p : Procedure α} (hp : p.Heeds told asked yields) {last : Effect}
    (hlast : asked last) : (p.ensuring last).Heeds told asked yields := by
  induction p with
  | done a => exact ⟨hlast, fun _ _ => hp⟩
  | fail e => exact ⟨hlast, fun _ _ => trivial⟩
  | call e next ih => exact ⟨hp.1, fun reply htold => ih reply (hp.2 reply htold)⟩

/-- Whoever has only effects of a kind needs no promise. -/
theorem Only.heeds {allowed : Effect → Prop} {p : Procedure α} (hp : p.Only allowed)
    (hasked : ∀ e, allowed e → asked e) : p.Heeds told asked fun _ => True := by
  induction p with
  | done a => trivial
  | fail e => trivial
  | call e next ih => exact ⟨hasked e hp.1, fun reply _ => ih reply (hp.2 reply)⟩

/-- Whoever asks nothing of the tables heeds whatever it is told. -/
theorem Quiet.heeds {p : Procedure α} (hp : p.Quiet yields)
    (hasked : ∀ e, e.isCall = false → asked e) : p.Heeds told asked yields := by
  induction p with
  | done a => exact hp
  | fail e => trivial
  | call e next ih => exact ⟨hasked e hp.1, fun reply _ => ih reply (hp.2 reply)⟩

theorem heeds_ofExcept {result : Except CaError α} (hresult : ∀ a, result = .ok a → yields a) :
    (ofExcept result).Heeds told asked yields := by
  cases result with
  | ok a => exact hresult a rfl
  | error e => trivial

theorem heeds_query {name : TableName} {call : TableCall name.Row}
    (hasked : asked (.table name call)) {first : call.Payload → Prop}
    (htold : ∀ a, told (.table name call) (.ok a) → first a) :
    (query name call).Heeds told asked first := by
  refine ⟨hasked, fun reply hreply => heeds_ofExcept fun a heq => htold a ?_⟩
  rw [← heq]
  exact hreply

/-- Whoever heeds what it is told may be told it in an office, as long as nothing else is asked
there; and goes on heeding. -/
theorem Heeds.keeps {p : Procedure α} (hp : p.Heeds told asked yields) {stores : Stores}
    (htold : ∀ (w : World) chance e, w.Reachable stores → (∀ event ∈ w.log, asked event.effect) →
      told e (w.reply stores chance e)) (task : Nat) (w : World) :
    p.Keeps (fun w => ∀ event ∈ w.log, asked event.effect) stores task
      (fun _ rest => rest.Heeds told asked yields) w := by
  induction p generalizing w with
  | done a => exact hp
  | fail e => exact hp
  | call e next ih =>
      refine ⟨hp, fun found _ hreachable hlaw chance => ⟨?_, ?_⟩⟩
      · intro event hevent
        rcases List.mem_append.mp hevent with hold | hnew
        · exact hlaw event hold
        · rw [List.mem_singleton.mp hnew]
          exact hp.1
      · exact ih _ (hp.2 _ (htold found chance e hreachable hlaw)) _

end Procedure

/-- If every operation heeds what it is told, and is told it as long as all others do, nothing is
asked but what may be. -/
theorem Interface.keeps_of_heeds {I : Interface} {told : (e : Effect) → e.Reply → Prop}
    {asked : Effect → Prop} {yields : (operation : I.Operation) → I.Result operation → Prop}
    {stores : Stores}
    (hheeds : ∀ operation, (I.procedure operation).Heeds told asked (yields operation))
    (htold : ∀ (w : World) chance e, w.Reachable stores → (∀ event ∈ w.log, asked event.effect) →
      told e (w.reply stores chance e)) :
    I.Keeps (fun w => ∀ event ∈ w.log, asked event.effect) stores
      fun operation _ _ rest => rest.Heeds told asked (yields operation) where
  empty := List.forall_mem_nil _
  start operation task w _ _ _ := (hheeds operation).keeps htold task w
  again operation task w _ _ _ := (hheeds operation).keeps htold task w

end CertAuthority
