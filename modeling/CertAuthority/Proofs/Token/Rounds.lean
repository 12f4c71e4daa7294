import CertAuthority.Proofs.Token.Conduct

/-!
# A token is redeemed in two rounds

Redeeming a token is a loop without a counter: it begins anew whenever its change of the token comes
too late.  But whoever comes too late once finds the token used or gone from then on, so that the
next reading is the last one.
-/

namespace CertAuthority.Tokens

/-- Whether a token was read. -/
def isReading : Event → Bool
  | ⟨_, .table .tokens (.get _), _⟩ => true
  | _ => false

/-- Whether the change of a token was refused. -/
def isRefusal : Event → Bool
  | ⟨_, .table .tokens (.update _ _ _), .error _⟩ => true
  | _ => false

/-- What a redemption does after its change of the token was refused: it may have read the clock,
and if it has read the token too, it has ended for one of three reasons. -/
inductive Finishing (redemption : Redemption) (task : Nat) :
    List Event → Procedure BootstrapToken → Prop where
  | ready (rest : Procedure BootstrapToken) : Finishing redemption task [] rest
  | timed (now : Instant) (rest : Procedure BootstrapToken) :
    Finishing redemption task [clock task now] rest
  | refused (now : Instant) (found? : Option (Versioned BootstrapToken)) {reason : RedeemError}
    (hreason : reason = .notFound ∨ reason = .expired ∨ reason = .alreadyUsed) :
    Finishing redemption task [clock task now, reading task redemption.tokenId found?]
      (.fail (.error (.token reason)))

/-- How little a redemption does. -/
structure Brief (redemption : Redemption) (task : Nat) (past : List Event)
    (rest : Procedure BootstrapToken) : Prop where
  readings : past.countP isReading ≤ 2
  refusals : past.countP isRefusal ≤ 1
  finishing : ∀ before refused after, past = before ++ refused :: after → isRefusal refused →
    Finishing redemption task after rest

section Course

variable {tables : MemoryTables} {w : World} {redemption : Redemption} {task : Nat}
  {past : List Event} {rest : Procedure BootstrapToken}

/-- A round that was lost takes one reading and one refusal. -/
theorem Lost.counts {lost : List Event} (hlost : Lost tables w redemption task lost) :
    lost.countP isReading ≤ 1 ∧ lost.countP isRefusal ≤ 1 := by
  cases hlost with
  | never => exact ⟨Nat.zero_le 1, Nat.zero_le 1⟩
  | once hover => exact ⟨Nat.le_refl 1, Nat.le_refl 1⟩

/-- The only refusal is the one of the round that was lost. -/
theorem Lost.after_refusal {lost last before after : List Event} {refused : Event}
    (hlost : Lost tables w redemption task lost) (hlast : ∀ event ∈ last, isRefusal event = false)
    (hsplit : lost ++ last = before ++ refused :: after) (hrefused : isRefusal refused) :
    lost ≠ [] ∧ after = last := by
  have hnone (earlier : List Event) (hlater : last = earlier ++ refused :: after) : False := by
    have hmem : refused ∈ last := by
      rw [hlater]
      exact List.mem_append_right _ List.mem_cons_self
    cases (hlast refused hmem).symm.trans hrefused
  cases hlost with
  | never => exact (hnone before hsplit).elim
  | once hover =>
      refine ⟨List.cons_ne_nil _ _, ?_⟩
      match before with
      | [] =>
          obtain ⟨rfl, -⟩ := List.cons.inj hsplit
          cases hrefused
      | [_] =>
          obtain ⟨rfl, -⟩ := List.cons.inj (List.cons.inj hsplit).2
          cases hrefused
      | [_, _] => exact (List.cons.inj (List.cons.inj (List.cons.inj hsplit).2).2).2.symm
      | _ :: _ :: _ :: earlier =>
          exact (hnone earlier (List.cons.inj (List.cons.inj (List.cons.inj hsplit).2).2).2).elim

theorem Course.brief (hcourse : Course tables w redemption task past rest) :
    Brief redemption task past rest := by
  cases hcourse with
  | ready hlost hrounds =>
      obtain ⟨hreadings, hrefusals⟩ := hlost.counts
      refine ⟨by omega, hrefusals, fun before refused after hsplit hrefused => ?_⟩
      rw [← List.append_nil past] at hsplit
      obtain ⟨-, rfl⟩ := hlost.after_refusal (List.forall_mem_nil _) hsplit hrefused
      exact .ready _
  | @timed lost hlost now rounds =>
      obtain ⟨hreadings, hrefusals⟩ := hlost.counts
      refine ⟨?_, ?_, fun before refused after hsplit hrefused => ?_⟩
      · rw [List.countP_append]
        exact Nat.add_le_add hreadings (Nat.zero_le 1)
      · rw [List.countP_append]
        exact hrefusals
      · obtain ⟨-, rfl⟩ := hlost.after_refusal (by simp [isRefusal, clock]) hsplit hrefused
        exact .timed now _
  | @checked read hseen hunused now rounds =>
      refine ⟨Nat.le_succ 1, Nat.zero_le 1, fun before refused after hsplit hrefused => ?_⟩
      have hnever : Lost tables w redemption task [] := .never
      exact absurd rfl (hnever.after_refusal (by simp [isRefusal, clock, reading]) hsplit
        hrefused).1
  | redeemed now read token =>
      refine ⟨Nat.le_succ 1, Nat.zero_le 1, fun before refused after hsplit hrefused => ?_⟩
      have hnever : Lost tables w redemption task [] := .never
      exact absurd rfl (hnever.after_refusal (by simp [isRefusal, clock, reading, Event.change])
        hsplit hrefused).1
  | @refused lost hlost now found? reason hreason =>
      obtain ⟨hreadings, hrefusals⟩ := hlost.counts
      refine ⟨?_, ?_, fun before refused after hsplit hrefused => ?_⟩
      · rw [List.countP_append]
        exact Nat.add_le_add hreadings (Nat.le_refl 1)
      · rw [List.countP_append]
        exact hrefusals
      · obtain ⟨hsome, rfl⟩ := hlost.after_refusal (by simp [isRefusal, clock, reading]) hsplit
          hrefused
        exact .refused now found? (hreason hsome)

/-- How far a redemption has come: by its effects, and by its loop, which it begins anew only after
a refusal. -/
def pace (past : List Event) : Procedure BootstrapToken → Nat
  | .fail .unfinished => past.length + past.countP isRefusal
  | _ => past.length + past.countP isRefusal + 1

theorem pace_le (past : List Event) (rest : Procedure BootstrapToken) :
    pace past rest ≤ past.length + past.countP isRefusal + 1 := by
  unfold pace
  split
  · exact Nat.le_succ _
  · exact Nat.le_refl _

theorem Lost.length_le {lost : List Event} (hlost : Lost tables w redemption task lost) :
    lost.length ≤ 3 := by
  cases hlost with
  | never => exact Nat.zero_le 3
  | once hover => exact Nat.le_refl 3

theorem Course.pace_lt (hcourse : Course tables w redemption task past rest)
    (hgoing : rest.outcome? = none) : pace past rest < 7 := by
  refine Nat.lt_of_le_of_lt (pace_le past rest) ?_
  cases hcourse with
  | ready hlost hrounds =>
      have hlength := hlost.length_le
      have hrefusals := hlost.counts.2
      omega
  | @timed lost hlost now rounds =>
      have hlength := hlost.length_le
      have hrefusals := hlost.counts.2
      have hlast : [clock task now].countP isRefusal = 0 := rfl
      rw [List.countP_append, List.length_append, hlast, List.length_singleton]
      omega
  | checked hseen hunused now rounds =>
      change 2 + 0 + 1 < 7
      decide
  | redeemed now read token => cases hgoing
  | refused hlost now found? hreason => cases hgoing

/-- The rounds of a redemption are used up only by a refusal. -/
theorem Course.refusal_of_unfinished {event : Event}
    (hcourse : Course tables w redemption task (past ++ [event]) (.fail .unfinished)) :
    isRefusal event := by
  generalize hrest : Procedure.fail .unfinished = rest at hcourse
  generalize hpast : past ++ [event] = whole at hcourse
  cases hcourse with
  | ready hlost hrounds =>
      cases hlost with
      | never => cases List.append_ne_nil_of_right_ne_nil past (List.cons_ne_nil event []) hpast
      | once hover =>
          have hlast := congrArg List.getLast? hpast
          rw [List.getLast?_concat] at hlast
          cases hlast
          rfl
  | timed hlost now rounds => cases hrest
  | checked hseen hunused now rounds => cases hrest
  | redeemed now read token => cases hrest
  | refused hlost now found? hreason => cases hrest

theorem pace_append (event : Event) {e : Effect} {next : e.Reply → Procedure BootstrapToken}
    (hcourse : Course tables w redemption task (past ++ [event]) rest) :
    pace past (.call e next) < pace (past ++ [event]) rest := by
  change past.length + past.countP isRefusal + 1 < _
  unfold pace
  split
  · have hrefusal := hcourse.refusal_of_unfinished
    rw [List.length_append, List.countP_append, List.countP_singleton, if_pos hrefusal,
      List.length_singleton]
    omega
  · rw [List.length_append, List.countP_append, List.length_singleton]
    omega

/-- A redemption has ended after six moves of its own. -/
theorem paced (tables : MemoryTables) (redemption : Redemption) (rounds task : Nat) :
    Office.Pace .reliable (stands tables) (.redeem redemption rounds) task pace 7 where
  call := by
    intro w e next chance _ hnext
    have hcourse : Course tables _ redemption task _ _ := hnext
    rw [World.past_after] at hcourse ⊢
    exact pace_append _ hcourse
  again := fun w _ => Nat.lt_succ_self _
  limit := fun w rest hstands hgoing => Course.pace_lt hstands hgoing

theorem Course.pos_pace (hcourse : Course tables w redemption task past rest) :
    1 ≤ pace past rest := by
  unfold pace
  split
  · generalize hrest : Procedure.fail .unfinished = rest at hcourse
    cases hcourse with
    | @ready lost hlost rounds hrounds =>
        cases rounds with
        | zero =>
            have hlength := List.length_pos_iff.mpr fun hnil => Nat.lt_irrefl 0 (hrounds hnil)
            exact hlength.trans_le (Nat.le_add_right _ _)
        | succ rounds => cases hrest
    | timed hlost now rounds => cases hrest
    | checked hseen hunused now rounds => cases hrest
    | redeemed now read token => cases hrest
    | refused hlost now found? hreason => cases hrest
  · exact Nat.succ_pos _

end Course

section Run

/-- Whatever others do, whoever redeems a token reads it at most twice and is refused at most one
change of it; after that refusal the next reading is its last effect, and it has ended for one of
three reasons.  It has ended in any case once it has had six moves of its own. -/
theorem brevity (tables : MemoryTables) (hdistinct : (tables .tokens).entries.Distinct)
    (moves more : List (Move desk))
    (hunrepeated : Unrepeated tables
      ((Office.opening tables).after .reliable (moves ++ more)).world.log)
    (task rounds : Nat) (redemption : Redemption) (rest : Procedure BootstrapToken)
    (htask : ((Office.opening tables).after .reliable moves).tasks[task]? =
      some ⟨.redeem redemption rounds, rest⟩) :
    Brief redemption task (((Office.opening tables).after .reliable moves).world.past task) rest ∧
      (6 ≤ more.countP (Move.isBy task) → ∃ outcome,
        ((Office.opening tables).after .reliable (moves ++ more)).Ended task
          (.redeem redemption rounds) outcome) := by
  rw [Office.after_append] at hunrepeated ⊢
  have hearlier := (desk_maintains tables).kind_earlier (Office.log_prefix_after .reliable _ more)
    hunrepeated
  have hupholds := upholds_after hdistinct hearlier
  have hcourse : Course tables _ redemption task _ rest :=
    hupholds.tasks task (.redeem redemption rounds) rest htask
  refine ⟨hcourse.brief, fun hcount => ?_⟩
  apply (paced tables redemption rounds task).ended (desk_maintains tables) hupholds htask
    hunrepeated
  have hpos := hcourse.pos_pace
  omega

/-- The rival of a race is refused, reads the token once more, and has ended. -/
theorem brevity_race :
    ∃ outcome, (Office.run (I := desk) .reliable
      (race ++ List.replicate 6 (.advance 2 noon))).Ended 2 (.redeem (redemptionBy "rival") 0)
        outcome := by
  have hunrepeated : Unrepeated (fun _ => .empty) (Office.run (I := desk) .reliable
      (race ++ List.replicate 6 (.advance 2 noon))).world.log :=
    unrepeated_of_countP_enters (fun _ => rfl) (Nat.le_of_eq rfl)
  obtain ⟨-, hends⟩ := brevity (fun _ => .empty) List.nodup_nil race
    (List.replicate 6 (.advance 2 noon)) hunrepeated 2 0 (redemptionBy "rival") _ rfl
  exact hends (by decide)

end Run

end CertAuthority.Tokens
