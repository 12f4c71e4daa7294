import CertAuthority.Proofs.Token.Ageing
import CertAuthority.Proofs.Token.Decision
import CertAuthority.Proofs.Token.Writes

/-!
# How far those who issue, redeem and prune tokens have come

A redemption that loses a round has seen its token unused, and knows by the refusal that the token
is used or gone; so it does not get as far as writing again.  A pruning goes through the entries
that it has listed, and counts the removals that were accepted.  Both write at the revision of an
entry that they have seen unused, which is why tokens only age.
-/

namespace CertAuthority.Tokens

open Versioned (nextRevision)

/-- The reading of the clock. -/
def clock (task : Nat) (now : Instant) : Event :=
  ⟨task, .now, now⟩

/-- The reading of what stands under an identifier. -/
def reading (task : Nat) (id : TokenId) (found? : Option (Versioned BootstrapToken)) : Event :=
  ⟨task, .table .tokens (.get id.text), .ok found?⟩

/-- The change of a token that came too late. -/
def refusal (task : Nat) (id : TokenId) (token : BootstrapToken) (revision : Nat) : Event :=
  ⟨task, .table .tokens (.update id.text token revision), .error (.conflict id.text)⟩

/-- The listing of all tokens. -/
def listing (task : Nat) (entries : Entries BootstrapToken) : Event :=
  ⟨task, .table .tokens .list, .ok entries⟩

section Redeeming

variable {tables : MemoryTables} {w found : World} {redemption : Redemption} {task : Nat}

/-- What a redemption has done in the round that it has lost, if it has lost one. -/
inductive Lost (tables : MemoryTables) (w : World) (redemption : Redemption) (task : Nat) :
    List Event → Prop where
  | never : Lost tables w redemption task []
  | once {now : Instant} {read : Versioned BootstrapToken} {token : BootstrapToken}
    (hover : Over tables w redemption.tokenId.text) :
    Lost tables w redemption task [clock task now, reading task redemption.tokenId (some read),
      refusal task redemption.tokenId token read.revision]

/-- What a redemption has done and has still to do. -/
inductive Course (tables : MemoryTables) (w : World) (redemption : Redemption) (task : Nat) :
    List Event → Procedure BootstrapToken → Prop where
  | ready {lost : List Event} (hlost : Lost tables w redemption task lost) {rounds : Nat}
    (hrounds : lost = [] → 0 < rounds) :
    Course tables w redemption task lost (redeem redemption rounds)
  | timed {lost : List Event} (hlost : Lost tables w redemption task lost) (now : Instant)
    (rounds : Nat) :
    Course tables w redemption task (lost ++ [clock task now])
      (.call (.table .tokens (.get redemption.tokenId.text))
        (examine redemption now (redeem redemption rounds)))
  | checked {read : Versioned BootstrapToken} (hseen : Seen tables w redemption.tokenId.text read)
    (hunused : read.value.isUsed = false) (now : Instant) (rounds : Nat) :
    Course tables w redemption task [clock task now, reading task redemption.tokenId (some read)]
      (.call (.table .tokens (.update redemption.tokenId.text
          (read.value.markUsed now redemption.commonName redemption.source) read.revision))
        (written (read.value.markUsed now redemption.commonName redemption.source)
          (redeem redemption rounds)))
  | redeemed (now : Instant) (read : Versioned BootstrapToken) (token : BootstrapToken) :
    Course tables w redemption task [clock task now, reading task redemption.tokenId (some read),
      .change task .tokens redemption.tokenId.text token read.revision] (.done token)
  | refused {lost : List Event} (hlost : Lost tables w redemption task lost) (now : Instant)
    (found? : Option (Versioned BootstrapToken)) {reason : RedeemError}
    (hreason : lost ≠ [] → reason = .notFound ∨ reason = .expired ∨ reason = .alreadyUsed) :
    Course tables w redemption task
      (lost ++ [clock task now, reading task redemption.tokenId found?])
      (.fail (.error (.token reason)))

theorem Lost.later {lost : List Event} (hlost : Lost tables w redemption task lost)
    (hlater : Later tables w found) : Lost tables found redemption task lost := by
  cases hlost with
  | never => exact .never
  | once hover => exact .once (hover.later hlater)

/-- What others do takes nothing away from a redemption. -/
theorem Course.later {past : List Event} {rest : Procedure BootstrapToken}
    (hcourse : Course tables w redemption task past rest) (hlater : Later tables w found) :
    Course tables found redemption task past rest := by
  cases hcourse with
  | ready hlost hrounds => exact .ready (hlost.later hlater) hrounds
  | timed hlost now rounds => exact .timed (hlost.later hlater) now rounds
  | checked hseen hunused now rounds => exact .checked (hseen.later hlater) hunused now rounds
  | redeemed now read token => exact .redeemed now read token
  | refused hlost now found? hreason => exact .refused (hlost.later hlater) now found? hreason

/-- What a redemption writes is warranted. -/
theorem Course.warranted {past : List Event} {e : Effect}
    {next : e.Reply → Procedure BootstrapToken}
    (hcourse : Course tables w redemption task past (.call e next)) : Warranted tables w e := by
  generalize hrest : Procedure.call e next = rest at hcourse
  cases hcourse with
  | @ready lost hlost rounds hrounds =>
      cases rounds with
      | zero => cases hrest
      | succ rounds =>
          cases hrest
          exact .aside rfl
  | timed hlost now rounds =>
      cases hrest
      exact .aside rfl
  | checked hseen hunused now rounds =>
      cases hrest
      exact .mark hseen hunused (isUsed_markUsed _ _ _ _)
  | redeemed now read token => cases hrest
  | refused hlost now found? hreason => cases hrest

/-- The reading of a token: who has lost a round finds it used or gone. -/
theorem Course.examined {lost : List Event} (hlost : Lost tables w redemption task lost)
    (hlaw : Lawful tables w) (now : Instant) (rounds : Nat) :
    Course tables w redemption task
      (lost ++ [clock task now, reading task redemption.tokenId
        (w.find? .tokens redemption.tokenId.text)])
      (examine redemption now (redeem redemption rounds)
        (.ok (w.find? .tokens redemption.tokenId.text))) := by
  cases hfind : w.find? .tokens redemption.tokenId.text with
  | none => exact .refused hlost now none fun _ => .inl rfl
  | some read =>
      rcases fits_or_refuses redemption now (some read) with
        ⟨held, hheld, hfits⟩ | ⟨reason, hrefuses⟩
      · obtain rfl := Option.some.inj hheld
        have hunused := isUsed_eq_false_iff.mpr hfits.unused
        simp only [examine, spend, checkRedeemable_eq_ok_iff_fits.mpr hfits]
        cases hlost with
        | never => exact .checked (hlaw.seen hfind) hunused now rounds
        | once hover => cases hunused.symm.trans (hover.gone read hfind)
      · simp only [examine, spend, checkRedeemable_of_refuses hrefuses]
        refine .refused hlost now (some read) fun hsome => ?_
        cases hlost with
        | never => exact absurd rfl hsome
        | once hover => exact .inr (hrefuses.of_used (hover.gone read hfind))

/-- A redemption comes further with each effect. -/
theorem Course.step {past : List Event} {e : Effect} {next : e.Reply → Procedure BootstrapToken}
    (hcourse : Course tables w redemption task past (.call e next)) (hlaw : Lawful tables w)
    (chance : Chance) (hlater : Later tables w (w.after .reliable chance task e)) :
    Course tables (w.after .reliable chance task e) redemption task
      (past ++ [⟨task, e, w.reply .reliable chance e⟩]) (next (w.reply .reliable chance e)) := by
  generalize hrest : Procedure.call e next = rest at hcourse
  cases hcourse with
  | @ready lost hlost rounds hrounds =>
      cases rounds with
      | zero => cases hrest
      | succ rounds =>
          cases hrest
          exact .timed (hlost.later hlater) chance.time rounds
  | timed hlost now rounds =>
      cases hrest
      rw [List.append_assoc]
      exact (Course.examined hlost hlaw now rounds).later hlater
  | @checked read hseen hunused now rounds =>
      cases hrest
      generalize read.value.markUsed now redemption.commonName redemption.source = token
        at hlater ⊢
      rcases (w.tables .tokens).update_cases redemption.tokenId.text token read.revision with
        ⟨hmoved, hrefused⟩ | ⟨held, hheld, hrevision, haccepted, -⟩
      · have hreply : w.reply .reliable chance
            (.table .tokens (.update redemption.tokenId.text token read.revision)) =
              .error (.conflict redemption.tokenId.text) := congrArg Prod.fst hrefused
        rw [hreply]
        exact .ready (.once ((hseen.over hmoved).later hlater)) fun hnil => nomatch hnil
      · have hreply : w.reply .reliable chance
            (.table .tokens (.update redemption.tokenId.text token read.revision)) =
              .ok (nextRevision read.revision) := haccepted
        rw [hreply]
        exact .redeemed now read token
  | redeemed now read token => cases hrest
  | refused hlost now found? hreason => cases hrest

/-- A redemption whose rounds are used up begins anew where it is. -/
theorem Course.again {past : List Event}
    (hcourse : Course tables w redemption task past (.fail .unfinished)) (rounds : Nat) :
    Course tables w redemption task past (redeem redemption (rounds + 1)) := by
  generalize hrest : Procedure.fail .unfinished = rest at hcourse
  cases hcourse with
  | ready hlost _ => exact .ready hlost fun _ => Nat.succ_pos rounds
  | timed hlost now rounds => cases hrest
  | checked hseen hunused now rounds => cases hrest
  | redeemed now read token => cases hrest
  | refused hlost now found? hreason => cases hrest

end Redeeming

section Pruning

variable {tables : MemoryTables} {w found : World} {now : Instant} {grace : Int} {task : Nat}

/-- What a pruning has done and has still to do. -/
inductive Sweep (tables : MemoryTables) (w : World) (now : Instant) (grace : Int) (task : Nat) :
    List Event → Procedure Nat → Prop where
  | ready : Sweep tables w now grace task [] (prune now grace)
  | going {listed left : Entries BootstrapToken} {deletes : List Event} {count : Nat}
    (hleft : left <:+ listed) (hseen : ∀ entry ∈ left, Seen tables w entry.1 entry.2)
    (hcount : deletes.countP (·.removes .tokens) = count) :
    Sweep tables w now grace task (listing task listed :: deletes)
      (pruneEntries now grace left count)

/-- What others do takes nothing away from a pruning. -/
theorem Sweep.later {past : List Event} {rest : Procedure Nat}
    (hsweep : Sweep tables w now grace task past rest) (hlater : Later tables w found) :
    Sweep tables found now grace task past rest := by
  cases hsweep with
  | ready => exact .ready
  | going hleft hseen hcount =>
      exact .going hleft (fun entry hentry => (hseen entry hentry).later hlater) hcount

theorem isUsed_eq_false_of_isStale? {token : BootstrapToken}
    (hstale : isStale? token now grace ≠ some false) : token.isUsed = false := by
  by_contra hused
  rw [Bool.not_eq_false] at hused
  exact hstale (if_pos hused)

/-- Going through entries ends, or comes to an entry that is to be removed. -/
theorem pruneEntries_cases (now : Instant) (grace : Int) (entries : Entries BootstrapToken)
    (count : Nat) :
    (pruneEntries now grace entries count = .done count ∧
        ∀ entry ∈ entries, isStale? entry.2.value now grace = some false) ∨
      (pruneEntries now grace entries count = .fail .calendar ∧
        ∃ entry ∈ entries, isStale? entry.2.value now grace = none) ∨
      ∃ key entry rest, (key, entry) :: rest <:+ entries ∧
        isStale? entry.value now grace = some true ∧
        pruneEntries now grace entries count =
          .call (.table .tokens (.delete key entry.revision))
            (removed (pruneEntries now grace rest) count) := by
  induction entries with
  | nil => exact .inl ⟨rfl, List.forall_mem_nil _⟩
  | cons head tail ih =>
      obtain ⟨key, entry⟩ := head
      cases hstale : isStale? entry.value now grace with
      | none =>
          refine .inr (.inl ⟨by simp only [pruneEntries, hstale], _, List.mem_cons_self, hstale⟩)
      | some stale =>
          cases stale with
          | true =>
              exact .inr (.inr ⟨key, entry, tail, List.suffix_rfl, hstale,
                by simp only [pruneEntries, hstale]⟩)
          | false =>
              have hskip : pruneEntries now grace ((key, entry) :: tail) count =
                  pruneEntries now grace tail count := by simp only [pruneEntries, hstale]
              rw [hskip]
              rcases ih with ⟨hdone, hall⟩ | ⟨hfail, other, hother, hnone⟩ |
                ⟨other, found, rest, hsuffix, htrue, hcall⟩
              · exact .inl ⟨hdone, List.forall_mem_cons.mpr ⟨hstale, hall⟩⟩
              · exact .inr (.inl ⟨hfail, other, List.mem_cons_of_mem _ hother, hnone⟩)
              · exact .inr (.inr ⟨other, found, rest, hsuffix.trans (List.suffix_cons _ _), htrue,
                  hcall⟩)

theorem prune_eq (now : Instant) (grace : Int) :
    prune now grace = .call (.table .tokens .list) fun reply =>
      (Procedure.ofExcept reply).bind fun entries => pruneEntries now grace entries 0 :=
  rfl

/-- What a pruning removes is warranted. -/
theorem Sweep.warranted {past : List Event} {e : Effect} {next : e.Reply → Procedure Nat}
    (hsweep : Sweep tables w now grace task past (.call e next)) : Warranted tables w e := by
  generalize hrest : Procedure.call e next = rest at hsweep
  cases hsweep with
  | ready =>
      rw [prune_eq] at hrest
      cases hrest
      exact .aside rfl
  | @going listed left deletes count hleft hseen hcount =>
      rcases pruneEntries_cases now grace left count with
        ⟨hdone, -⟩ | ⟨hfail, -⟩ | ⟨key, entry, rest, hsuffix, hstale, hcall⟩
      · cases hrest.trans hdone
      · cases hrest.trans hfail
      · cases hrest.trans hcall
        have hunused : isStale? entry.value now grace ≠ some false := by simp [hstale]
        exact .removal (hseen (key, entry) (hsuffix.subset List.mem_cons_self))
          (isUsed_eq_false_of_isStale? hunused)

/-- A pruning comes further with each effect, and counts the removals that were accepted. -/
theorem Sweep.step {past : List Event} {e : Effect} {next : e.Reply → Procedure Nat}
    (hsweep : Sweep tables w now grace task past (.call e next)) (hlaw : Lawful tables w)
    (chance : Chance) (hlater : Later tables w (w.after .reliable chance task e)) :
    Sweep tables (w.after .reliable chance task e) now grace task
      (past ++ [⟨task, e, w.reply .reliable chance e⟩]) (next (w.reply .reliable chance e)) := by
  generalize hrest : Procedure.call e next = rest at hsweep
  cases hsweep with
  | ready =>
      rw [prune_eq] at hrest
      cases hrest
      refine .going List.suffix_rfl (fun entry hentry => ?_) rfl
      have hfind : w.find? .tokens entry.1 = some entry.2 :=
        Entries.find?_eq_some_of_mem hlaw.distinct hentry
      exact (hlaw.seen hfind).later hlater
  | @going listed left deletes count hleft hseen hcount =>
      rcases pruneEntries_cases now grace left count with
        ⟨hdone, -⟩ | ⟨hfail, -⟩ | ⟨key, entry, rest, hsuffix, -, hcall⟩
      · cases hrest.trans hdone
      · cases hrest.trans hfail
      · cases hrest.trans hcall
        have hrestLeft : rest <:+ listed := (List.suffix_cons _ _).trans (hsuffix.trans hleft)
        have hrestSeen (other) (hother : other ∈ rest) := (hseen other
          (hsuffix.subset (List.mem_cons_of_mem _ hother))).later hlater
        rcases (w.tables .tokens).delete_cases key entry.revision with
          ⟨-, hrefused⟩ | ⟨held, -, -, haccepted, -⟩
        · have hreply : w.reply .reliable chance (.table .tokens (.delete key entry.revision)) =
              .error (.conflict key) := congrArg Prod.fst hrefused
          have hsame : (deletes ++ [Event.mk task (.table .tokens (.delete key entry.revision))
              (.error (.conflict key))]).countP (·.removes .tokens) = count := by
            rw [List.countP_append, hcount]
            rfl
          rw [hreply]
          exact .going hrestLeft hrestSeen hsame
        · have hreply : w.reply .reliable chance (.table .tokens (.delete key entry.revision)) =
              .ok () := haccepted
          have hmore : (deletes ++ [Event.mk task (.table .tokens (.delete key entry.revision))
              (.ok ())]).countP (·.removes .tokens) = count + 1 := by
            rw [List.countP_append, hcount]
            rfl
          rw [hreply]
          exact .going hrestLeft hrestSeen hmore

/-- A pruning has no rounds that could be used up. -/
theorem Sweep.ne_unfinished {past : List Event} {rest : Procedure Nat}
    (hsweep : Sweep tables w now grace task past rest) : rest ≠ .fail .unfinished := by
  rintro rfl
  generalize hrest : Procedure.fail .unfinished = rest at hsweep
  cases hsweep with
  | ready => cases hrest.trans (prune_eq now grace)
  | @going listed left deletes count hleft hseen hcount =>
      rcases pruneEntries_cases now grace left count with ⟨hdone, -⟩ | ⟨hfail, -⟩ |
        ⟨key, entry, rest, -, -, hcall⟩
      · cases hrest.trans hdone
      · cases hrest.trans hfail
      · cases hrest.trans hcall

end Pruning

/-- What the issuing of a token has done and has still to do: nothing but entering tokens. -/
structure Issuing (past : List Event) (rest : Procedure BootstrapToken) : Prop where
  removals : past.countP (·.removes .tokens) = 0
  asks : rest.Asks fun e => ∃ key token, e = .table .tokens (.create key token)

theorem issuing_start (order : Order) {past : List Event}
    (hremovals : past.countP (·.removes .tokens) = 0) : Issuing past (issue order) :=
  ⟨hremovals, issue_asks (fun token _ => ⟨_, token, rfl⟩) order⟩

theorem Issuing.warranted {tables : MemoryTables} {w : World} {past : List Event} {e : Effect}
    {next : e.Reply → Procedure BootstrapToken} (hissuing : Issuing past (.call e next)) :
    Warranted tables w e := by
  apply hissuing.asks.1.elim
  · exact fun hquiet => .aside (Effect.not_writesTo_of_not_asksWrite hquiet _)
  · rintro ⟨key, token, rfl⟩
    exact .entry key token

theorem Issuing.step {past : List Event} {e : Effect} {next : e.Reply → Procedure BootstrapToken}
    (hissuing : Issuing past (.call e next)) (task : Nat) (reply : e.Reply) :
    Issuing (past ++ [⟨task, e, reply⟩]) (next reply) where
  removals := by
    have hkeeps : (Event.mk task e reply).removes .tokens = false := by
      apply hissuing.asks.1.elim
      · intro hquiet
        exact (Event.idle_of_not_writesTo (Effect.not_writesTo_of_not_asksWrite hquiet _) task
          reply).2
      · rintro ⟨key, token, rfl⟩
        rfl
    rw [List.countP_append, hissuing.removals, List.countP_singleton, hkeeps]
    rfl
  asks := hissuing.asks.2 reply

/-- How a task stands among those who issue, redeem and prune tokens. -/
def stands (tables : MemoryTables) : desk.Standing
  | w, .issue _, task, rest => Issuing (w.past task) rest
  | w, .redeem redemption _, task, rest => Course tables w redemption task (w.past task) rest
  | w, .prune now grace, task, rest => Sweep tables w now grace task (w.past task) rest

section Desk

variable {tables : MemoryTables} {w found : World} {task : Nat}

/-- What others do takes nothing away from a task. -/
theorem stands_later {operation : Errand} {rest : Procedure (desk.Result operation)}
    (hstands : stands tables w operation task rest) (hlater : Later tables w found)
    (hpast : found.past task = w.past task) : stands tables found operation task rest := by
  cases operation with
  | issue order =>
      have hissuing : Issuing (w.past task) rest := hstands
      rw [← hpast] at hissuing
      exact hissuing
  | redeem redemption rounds =>
      have hcourse : Course tables w redemption task (w.past task) rest := hstands
      rw [← hpast] at hcourse
      exact hcourse.later hlater
  | prune now grace =>
      have hsweep : Sweep tables w now grace task (w.past task) rest := hstands
      rw [← hpast] at hsweep
      exact hsweep.later hlater

theorem stands_warranted {operation : Errand} {e : Effect}
    {next : e.Reply → Procedure (desk.Result operation)}
    (hstands : stands tables w operation task (.call e next)) : Warranted tables w e := by
  cases operation with
  | issue order => exact Issuing.warranted hstands
  | redeem redemption rounds => exact Course.warranted hstands
  | prune now grace => exact Sweep.warranted hstands

theorem stands_step {operation : Errand} {e : Effect}
    {next : e.Reply → Procedure (desk.Result operation)}
    (hstands : stands tables w operation task (.call e next)) (hlaw : Lawful tables w)
    (chance : Chance) (hlater : Later tables w (w.after .reliable chance task e)) :
    stands tables (w.after .reliable chance task e) operation task
      (next (w.reply .reliable chance e)) := by
  cases operation with
  | issue order =>
      have hissuing := Issuing.step hstands task (w.reply .reliable chance e)
      rw [← World.past_after] at hissuing
      exact hissuing
  | redeem redemption rounds =>
      have hcourse := Course.step hstands hlaw chance hlater
      rw [← World.past_after] at hcourse
      exact hcourse
  | prune now grace =>
      have hsweep := Sweep.step hstands hlaw chance hlater
      rw [← World.past_after] at hsweep
      exact hsweep

theorem stands_start (operation : Errand) (hpast : w.past task = []) :
    stands tables w operation task (desk.procedure operation) := by
  cases operation with
  | issue order => exact issuing_start order (by rw [hpast]; rfl)
  | redeem redemption rounds =>
      have hready : Course tables w redemption task [] (redeem redemption (rounds + 1)) :=
        .ready .never fun _ => Nat.succ_pos rounds
      rw [← hpast] at hready
      exact hready
  | prune now grace =>
      have hready : Sweep tables w now grace task [] (prune now grace) := .ready
      rw [← hpast] at hready
      exact hready

/-- Those who issue, redeem and prune tokens let them only age. -/
theorem desk_maintains (tables : MemoryTables) :
    desk.Maintains .reliable (Unrepeated tables) (Lawful tables) (stands tables) where
  earlier _ _ := Unrepeated.earlier
  start operation _ _ _ hpast := stands_start operation hpast
  again := by
    intro operation task w _ hstands
    cases operation with
    | issue order => exact issuing_start order hstands.removals
    | redeem redemption rounds => exact Course.again hstands rounds
    | prune now grace => exact absurd rfl (Sweep.ne_unfinished hstands)
  call := by
    intro operation task e next w chance hlaw hstands hkind
    obtain ⟨hafter, hlater⟩ := (stands_warranted hstands).step hlaw hkind
    refine ⟨hafter, stands_step hstands hlaw chance hlater, ?_⟩
    intro other others rest hother hothers
    exact stands_later hothers hlater (World.past_after_of_ne w _ chance hother.symm e)

/-- What is upheld while tokens are issued, redeemed and pruned. -/
theorem upholds_after (hdistinct : (tables .tokens).entries.Distinct) {moves : List (Move desk)}
    (hunrepeated : Unrepeated tables ((Office.opening tables).after .reliable moves).world.log) :
    ((Office.opening tables).after .reliable moves).Upholds (Lawful tables) (stands tables) :=
  (Office.upholds_opening (lawful_opening hdistinct)).after (desk_maintains tables) hunrepeated

end Desk

end CertAuthority.Tokens
