import Mathlib.Algebra.BigOperators.Fin
import CertAuthority.Proofs.Token.Conduct

/-!
# What pruning removes

A pruning lists the tokens and removes, one after the other, those that were not used and whose time
of grace has passed.  With nothing in between it leaves all others as they are, and the next one
finds nothing to remove.  While others redeem and prune, what it removes is unused and stale at that
moment: a token that was redeemed since it was listed is at another revision.  What it returns is
the number of entries that it has removed, and no other one has counted them.
-/

namespace CertAuthority.Tokens

/-- That a token is to be removed: it was not used, and its time of grace has passed. -/
structure Stale (token : BootstrapToken) (now : Instant) (grace : Int) : Prop where
  unused : token.usedAt = none
  passed : ∃ last, token.expiresAt.addSeconds? grace = some last ∧ last < now

/-- That a token is to stay: it was used, or its time of grace has not passed. -/
def Stays (token : BootstrapToken) (now : Instant) (grace : Int) : Prop :=
  token.usedAt ≠ none ∨ ∃ last, token.expiresAt.addSeconds? grace = some last ∧ now ≤ last

/-- That the times of grace of tokens which were not used end within the calendar. -/
def Ranged (entries : Entries BootstrapToken) (grace : Int) : Prop :=
  ∀ entry ∈ entries, entry.2.value.usedAt = none →
    (entry.2.value.expiresAt.addSeconds? grace).isSome

section Staleness

variable {token : BootstrapToken} {now : Instant} {grace : Int}

theorem isStale?_eq_true_iff : isStale? token now grace = some true ↔ Stale token now grace := by
  unfold isStale?
  cases hused : token.isUsed with
  | true =>
      simp only [if_true, Option.some.injEq, Bool.false_eq_true, false_iff]
      intro hstale
      cases (isUsed_eq_false_iff.mpr hstale.unused).symm.trans hused
  | false =>
      simp only [Bool.false_eq_true, if_false, Option.map_eq_some_iff, decide_eq_true_eq]
      exact ⟨fun h => ⟨isUsed_eq_false_iff.mp hused, h⟩, fun h => h.passed⟩

theorem isStale?_eq_false_iff : isStale? token now grace = some false ↔ Stays token now grace := by
  unfold isStale? Stays
  rw [ne_eq, ← isUsed_eq_false_iff]
  cases hused : token.isUsed with
  | true => simp
  | false =>
      simp only [Bool.false_eq_true, if_false, Option.map_eq_some_iff, decide_eq_false_iff_not,
        Instant.not_lt, not_true_eq_false, false_or]

theorem isStale?_eq_none_iff : isStale? token now grace = none ↔
    token.usedAt = none ∧ token.expiresAt.addSeconds? grace = none := by
  unfold isStale?
  rw [← isUsed_eq_false_iff]
  cases hused : token.isUsed <;> simp

theorem Stays.earlier {earlier : Instant} (hstays : Stays token now grace) (hle : earlier ≤ now) :
    Stays token earlier grace := by
  rcases hstays with hused | ⟨last, hlast, hnow⟩
  · exact .inl hused
  · refine .inr ⟨last, hlast, Instant.not_lt.mp fun hlt => ?_⟩
    exact Instant.not_lt.mpr hnow (Instant.lt_of_lt_of_le hlt hle)

end Staleness

section Alone

variable {w : World} {now : Instant} {grace : Int} {task : Nat}

/-- The entries that a pruning leaves. -/
def remaining (now : Instant) (grace : Int) (entries : Entries BootstrapToken) :
    Entries BootstrapToken :=
  entries.filter fun entry => isStale? entry.2.value now grace = some false

/-- Going through the rest of a listing, with those before it that were left. -/
theorem alone_pruneEntries {kept left : Entries BootstrapToken}
    (hentries : (w.tables .tokens).entries = kept ++ left)
    (hdistinct : (kept ++ left).Distinct) (hranged : Ranged left grace) (count : Nat)
    {chances : List Chance} (hchances : left.length ≤ chances.length) :
    ∃ gone found, gone + (remaining now grace left).length = left.length ∧
      (pruneEntries now grace left count).alone .reliable task chances w =
        (.done (count + gone), found) ∧
      found.tables = Function.update w.tables .tokens ⟨kept ++ remaining now grace left⟩ := by
  induction left generalizing kept count w chances with
  | nil =>
      refine ⟨0, w, rfl, Procedure.alone_of_ended rfl _ _ _, ?_⟩
      rw [remaining, List.filter_nil, ← hentries]
      exact (Function.update_eq_self _ _).symm
  | cons head tail ih =>
      obtain ⟨key, entry⟩ := head
      have hranged_tail : Ranged tail grace := fun entry hentry =>
        hranged entry (List.mem_cons_of_mem _ hentry)
      cases hstale : isStale? entry.value now grace with
      | none =>
          obtain ⟨hunused, hbeyond⟩ := isStale?_eq_none_iff.mp hstale
          have hwithin := hranged (key, entry) List.mem_cons_self hunused
          rw [hbeyond] at hwithin
          cases hwithin
      | some stale =>
          cases stale with
          | false =>
              have hstays : remaining now grace ((key, entry) :: tail) =
                  (key, entry) :: remaining now grace tail := by simp [remaining, hstale]
              rw [List.append_cons] at hentries hdistinct
              obtain ⟨gone, found, hcount, hrun, htables⟩ :=
                ih hentries hdistinct hranged_tail count ((Nat.le_succ _).trans hchances)
              refine ⟨gone, found, ?_, ?_, ?_⟩
              · rw [hstays, List.length_cons, List.length_cons, ← hcount]
                omega
              · simp only [pruneEntries, hstale]
                exact hrun
              · rw [hstays, List.append_cons]
                exact htables
          | true =>
              have hgoes : remaining now grace ((key, entry) :: tail) =
                  remaining now grace tail := by simp [remaining, hstale]
              obtain ⟨chance, chances, rfl⟩ := List.exists_cons_of_length_pos
                ((Nat.succ_pos _).trans_le hchances)
              have hfind : w.find? .tokens key = some entry := by
                apply Entries.find?_eq_some_of_mem
                · rw [hentries]
                  exact hdistinct
                · rw [hentries]
                  exact List.mem_append_right _ List.mem_cons_self
              obtain ⟨hreply, hafter⟩ := World.delete_of_current chance task hfind
              rw [hentries, Entries.erase_append_cons hdistinct] at hafter
              have hleft : ((w.after .reliable chance task
                  (.table .tokens (.delete key entry.revision))).tables .tokens).entries =
                    kept ++ tail := by
                rw [hafter, Function.update_self]
              have hdistinct_tail : (kept ++ tail).Distinct := by
                rw [← hleft]
                apply World.distinct_after
                rw [hentries]
                exact hdistinct
              obtain ⟨gone, found, hcount, hrun, htables⟩ :=
                ih hleft hdistinct_tail hranged_tail (count + 1) (Nat.le_of_succ_le_succ hchances)
              refine ⟨gone + 1, found, ?_, ?_, ?_⟩
              · rw [hgoes, List.length_cons, ← hcount]
                omega
              · simp only [pruneEntries, hstale, Procedure.alone, hreply, removed]
                rw [hrun, Nat.add_right_comm, Nat.add_assoc]
              · rw [hgoes, htables, hafter, Function.update_idem]

/-- What a pruning with nothing in between leaves, and what it returns. -/
structure Cleared (now : Instant) (grace : Int) (tables left : MemoryTables) (count : Nat) :
    Prop where
  /-- What is left stands as it stood, and in the same order. -/
  sublist : (left .tokens).entries.Sublist (tables .tokens).entries
  stays : ∀ entry ∈ (tables .tokens).entries,
    entry ∈ (left .tokens).entries ↔ Stays entry.2.value now grace
  count : count + (left .tokens).entries.length = (tables .tokens).entries.length
  others : ∀ name, name ≠ .tokens → left name = tables name

theorem alone_prune (task : Nat) (now : Instant) (hdistinct : (w.tables .tokens).entries.Distinct)
    (hranged : Ranged (w.tables .tokens).entries grace) {chances : List Chance}
    (hchances : (w.tables .tokens).entries.length < chances.length) :
    ∃ count found, (prune now grace).alone .reliable task chances w = (.done count, found) ∧
      count + (remaining now grace (w.tables .tokens).entries).length =
        (w.tables .tokens).entries.length ∧
      found.tables = Function.update w.tables .tokens
        ⟨remaining now grace (w.tables .tokens).entries⟩ := by
  obtain ⟨chance, chances, rfl⟩ := List.exists_cons_of_length_pos
    ((Nat.zero_le _).trans_lt hchances)
  have hlisted : (w.after .reliable chance task (.table .tokens .list)).tables = w.tables := by
    funext name
    exact World.tables_after_of_not_writesTo w .reliable chance task rfl
  have hentries : ((w.after .reliable chance task (.table .tokens .list)).tables .tokens).entries =
      [] ++ (w.tables .tokens).entries := by
    rw [hlisted]
    rfl
  obtain ⟨gone, found, hcount, hrun, htables⟩ := alone_pruneEntries hentries hdistinct hranged 0
    (Nat.le_of_lt_succ hchances)
  refine ⟨gone, found, ?_, hcount, ?_⟩
  · rw [Nat.zero_add] at hrun
    exact hrun
  · rw [htables, hlisted]
    rfl

/-- Another pruning finds nothing to remove, unless it is made later. -/
theorem remaining_remaining {earlier : Instant} (hle : earlier ≤ now)
    (entries : Entries BootstrapToken) :
    remaining earlier grace (remaining now grace entries) = remaining now grace entries := by
  refine List.filter_eq_self.mpr fun entry hentry => ?_
  have hstays := isStale?_eq_false_iff.mp (of_decide_eq_true (List.mem_filter.mp hentry).2)
  exact decide_eq_true (isStale?_eq_false_iff.mpr (hstays.earlier hle))

theorem alone_prune_again {earlier : Instant} (hle : earlier ≤ now)
    {entries : Entries BootstrapToken} (hdistinct : entries.Distinct)
    (hranged : Ranged entries grace)
    (hcleared : (w.tables .tokens).entries = remaining now grace entries)
    {chances : List Chance} (hchances : (w.tables .tokens).entries.length < chances.length) :
    ∃ found, (prune earlier grace).alone .reliable task chances w = (.done 0, found) ∧
      found.tables = w.tables := by
  have hsublist : (w.tables .tokens).entries.Sublist entries := by
    rw [hcleared]
    exact List.filter_sublist
  obtain ⟨count, found, hrun, hcount, htables⟩ := alone_prune task earlier
    ((hsublist.map _).nodup hdistinct) (fun entry hentry => hranged entry (hsublist.subset hentry))
    hchances
  have hsame : remaining earlier grace (w.tables .tokens).entries = (w.tables .tokens).entries := by
    rw [hcleared]
    exact remaining_remaining hle entries
  rw [hsame] at hcount htables
  obtain rfl : count = 0 := by omega
  exact ⟨found, hrun, htables.trans (Function.update_eq_self _ _)⟩

theorem cleared_of_tables {tables left : MemoryTables} {count : Nat}
    (hcount : count + (remaining now grace (tables .tokens).entries).length =
      (tables .tokens).entries.length)
    (hleft : left = Function.update tables .tokens
      ⟨remaining now grace (tables .tokens).entries⟩) :
    Cleared now grace tables left count := by
  subst hleft
  constructor
  · rw [Function.update_self]
    exact List.filter_sublist
  · intro entry hentry
    rw [Function.update_self, remaining, List.mem_filter, decide_eq_true_eq, isStale?_eq_false_iff]
    exact and_iff_right hentry
  · rw [Function.update_self]
    exact hcount
  · intro name hname
    rw [Function.update_of_ne hname]

end Alone

section Among

variable {tables : MemoryTables} {w : World} {now : Instant} {grace : Int} {task : Nat}
  {past : List Event} {redemption : Redemption}

/-- A pruning that is about to remove an entry has seen it stale. -/
theorem Sweep.stale_of_delete {key : String} {revision : Nat}
    {next : Except CaError Unit → Procedure Nat}
    (hsweep : Sweep tables w now grace task past
      (.call (.table .tokens (.delete key revision)) next)) :
    ∃ read : Versioned BootstrapToken, Seen tables w key read ∧ read.revision = revision ∧
      Stale read.value now grace := by
  generalize hrest : Procedure.call (.table .tokens (.delete key revision)) next = rest at hsweep
  cases hsweep with
  | ready =>
      rw [prune_eq] at hrest
      cases hrest
  | @going listed left deletes count hleft hseen hcount =>
      rcases pruneEntries_cases now grace left count with
        ⟨hdone, -⟩ | ⟨hfail, -⟩ | ⟨key, entry, rest, hsuffix, hstale, hcall⟩
      · cases hrest.trans hdone
      · cases hrest.trans hfail
      · cases hrest.trans hcall
        exact ⟨entry, hseen (key, entry) (hsuffix.subset List.mem_cons_self), rfl,
          isStale?_eq_true_iff.mp hstale⟩

/-- A pruning returns the number of entries that it has removed. -/
theorem Sweep.removals_of_done {count : Nat}
    (hsweep : Sweep tables w now grace task past (.done count)) :
    past.countP (·.removes .tokens) = count := by
  generalize hrest : Procedure.done count = rest at hsweep
  cases hsweep with
  | ready =>
      rw [prune_eq] at hrest
      cases hrest
  | @going listed left deletes removals hleft hseen hcount =>
      rcases pruneEntries_cases now grace left removals with
        ⟨hdone, -⟩ | ⟨hfail, -⟩ | ⟨key, entry, rest, hsuffix, hstale, hcall⟩
      · cases hrest.trans hdone
        rw [List.countP_cons, hcount]
        rfl
      · cases hrest.trans hfail
      · cases hrest.trans hcall

/-- A pruning fails only if it has listed an unused token whose time of grace leaves the
calendar. -/
theorem Sweep.not_ranged_of_fail {f : Failure}
    (hsweep : Sweep tables w now grace task past (.fail f)) :
    f = .calendar ∧ ∃ listed, past.head? = some (listing task listed) ∧
      ¬ Ranged listed grace := by
  generalize hrest : Procedure.fail f = rest at hsweep
  cases hsweep with
  | ready =>
      rw [prune_eq] at hrest
      cases hrest
  | @going listed left deletes removals hleft hseen hcount =>
      rcases pruneEntries_cases now grace left removals with
        ⟨hdone, -⟩ | ⟨hfail, entry, hentry, hnone⟩ | ⟨key, entry, rest, hsuffix, hstale, hcall⟩
      · cases hrest.trans hdone
      · cases hrest.trans hfail
        obtain ⟨hunused, hbeyond⟩ := isStale?_eq_none_iff.mp hnone
        refine ⟨rfl, listed, rfl, fun hranged => ?_⟩
        have hwithin := hranged entry (hleft.subset hentry) hunused
        rw [hbeyond] at hwithin
        cases hwithin
      · cases hrest.trans hcall

theorem Lost.removals {lost : List Event} (hlost : Lost tables w redemption task lost) :
    lost.countP (·.removes .tokens) = 0 := by
  cases hlost with
  | never => rfl
  | once hover => rfl

/-- A redemption removes nothing. -/
theorem Course.removals {rest : Procedure BootstrapToken}
    (hcourse : Course tables w redemption task past rest) :
    past.countP (·.removes .tokens) = 0 := by
  cases hcourse with
  | ready hlost hrounds => exact hlost.removals
  | timed hlost now rounds =>
      rw [List.countP_append, hlost.removals]
      rfl
  | checked hseen hunused now rounds => rfl
  | redeemed now read token => rfl
  | refused hlost now found? hreason =>
      rw [List.countP_append, hlost.removals]
      rfl

theorem Course.not_delete {key : String} {revision : Nat}
    {next : Except CaError Unit → Procedure BootstrapToken}
    (hcourse : Course tables w redemption task past
      (.call (.table .tokens (.delete key revision)) next)) : False := by
  generalize hrest : Procedure.call (.table .tokens (.delete key revision)) next = rest at hcourse
  cases hcourse with
  | @ready lost hlost rounds hrounds => cases rounds <;> cases hrest
  | timed hlost now rounds => cases hrest
  | checked hseen hunused now rounds => cases hrest
  | redeemed now read token => cases hrest
  | refused hlost now found? hreason => cases hrest

theorem endsWithin_pruneEntries (now : Instant) (grace : Int) (entries : Entries BootstrapToken)
    (count : Nat) : (pruneEntries now grace entries count).EndsWithin entries.length := by
  induction entries generalizing count with
  | nil => trivial
  | cons head tail ih =>
      obtain ⟨key, entry⟩ := head
      cases hstale : isStale? entry.value now grace with
      | none =>
          simp only [pruneEntries, hstale]
          intro hunfinished
          cases hunfinished
      | some stale =>
          cases stale with
          | false =>
              simp only [pruneEntries, hstale]
              exact (ih count).mono (Nat.le_succ _)
          | true =>
              simp only [pruneEntries, hstale]
              intro reply
              unfold removed
              split
              · exact ih _
              · exact ih _
              · intro hunfinished
                cases hunfinished

theorem listing_injective {entries others : Entries BootstrapToken}
    (hsame : listing task entries = listing task others) : entries = others := by
  unfold listing at hsame
  injection hsame with _ _ hreply
  exact Except.ok.inj hreply

/-- A pruning that has listed the entries ends after at most as many effects. -/
theorem Sweep.endsWithin {listed : Entries BootstrapToken} {rest : Procedure Nat}
    (hsweep : Sweep tables w now grace task past rest)
    (hlisted : past.head? = some (listing task listed)) : rest.EndsWithin listed.length := by
  cases hsweep with
  | ready => cases hlisted
  | @going found left deletes count hleft hseen hcount =>
      obtain rfl := listing_injective (Option.some.inj hlisted)
      exact (endsWithin_pruneEntries now grace left count).mono hleft.length_le

end Among

section Run

variable {tables : MemoryTables} {s : Office desk}

/-- What vanishes is removed by a pruning, which finds it unused and stale. -/
theorem stale_of_vanished (hupholds : s.Upholds (Lawful tables) (stands tables))
    {move : Move desk} {key : String} {entry : Versioned BootstrapToken}
    (hfind : s.world.find? .tokens key = some entry)
    (hgone : (s.act .reliable move).world.find? .tokens key = none) :
    ∃ task chance now grace rest, move = .advance task chance ∧
      s.tasks[task]? = some ⟨.prune now grace, rest⟩ ∧ Stale entry.value now grace := by
  have hstill (hsame : (s.act .reliable move).world = s.world) : False := by
    rw [hsame, hfind] at hgone
    cases hgone
  rcases s.act_cases .reliable move with ⟨operation, hact⟩ |
    ⟨i, operation, e, next, chance, hmove, htask, hact⟩ | ⟨i, operation, htask, hact⟩ | hact
  · exact (hstill (by rw [hact])).elim
  · rw [hact] at hgone
    obtain rfl := World.removed_of_vanished hfind hgone
    have hstands := hupholds.tasks i operation _ htask
    cases operation with
    | issue order =>
        obtain ⟨created, token, hcreate⟩ := (Issuing.asks hstands).1 rfl
        cases hcreate
    | redeem redemption rounds => exact (Course.not_delete hstands).elim
    | prune now grace =>
        obtain ⟨read, hseen, hrevision, hstale⟩ := Sweep.stale_of_delete hstands
        obtain rfl := hseen.eq_of_revision hfind hrevision.symm
        exact ⟨i, chance, now, grace, _, hmove, htask, hstale⟩
  · exact (hstill (by rw [hact])).elim
  · exact (hstill (by rw [hact])).elim

/-- The number that a task returns if it is a pruning that has returned. -/
def pruned : Task desk → Nat
  | ⟨.prune _ _, rest⟩ =>
      match (rest : Procedure Nat).outcome? with
      | some (.ok count) => count
      | _ => 0
  | _ => 0

/-- That every pruning has returned the number of entries that it has removed. -/
def AllPruned (s : Office desk) : Prop :=
  ∀ (task : Nat) (now : Instant) (grace : Int) (rest : Procedure Nat),
    s.tasks[task]? = some ⟨.prune now grace, rest⟩ → ∃ count : Nat, rest = .done count

theorem pruned_eq_removals (hupholds : s.Upholds (Lawful tables) (stands tables))
    (hpruned : AllPruned s) {task : Nat} (htask : task < s.tasks.length) :
    pruned s.tasks[task] = (s.world.past task).countP (·.removes .tokens) := by
  have hfound := List.getElem?_eq_getElem htask
  generalize s.tasks[task] = found at hfound ⊢
  obtain ⟨operation, rest⟩ := found
  have hstands := hupholds.tasks task operation rest hfound
  cases operation with
  | issue order => exact (Issuing.removals hstands).symm
  | redeem redemption rounds => exact (Course.removals hstands).symm
  | prune now grace =>
      obtain ⟨count, rfl⟩ := hpruned task now grace rest hfound
      exact (Sweep.removals_of_done hstands).symm

/-- The accounts of those who have pruned a table of tokens. -/
structure Accounts (tables : MemoryTables) (s : Office desk) : Prop where
  /-- Who has returned a number has removed as many entries. -/
  returned : ∀ task now grace count, s.Ended task (.prune now grace) (.ok count) →
    (s.world.past task).countP (·.removes .tokens) = count
  /-- If all have returned, the numbers make up all entries that were removed. -/
  total : AllPruned s → (s.tasks.map pruned).sum = s.world.log.countP (·.removes .tokens)
  /-- The entries that were removed are missing from those that stood and that were entered. -/
  balance : (s.world.tables .tokens).entries.length + s.world.log.countP (·.removes .tokens) =
    (tables .tokens).entries.length + s.world.log.countP (·.enters .tokens)
  /-- Who has failed has listed an unused token whose time of grace leaves the calendar. -/
  failed : ∀ task now grace f, s.Ended task (.prune now grace) (.error f) →
    f = .calendar ∧ ∃ listed, (s.world.past task).head? = some (listing task listed) ∧
      ¬ Ranged listed grace

theorem accounts_of_upholds (hupholds : s.Upholds (Lawful tables) (stands tables))
    (hbalanced : s.world.Balanced .tokens (tables .tokens).entries.length) :
    Accounts tables s where
  returned := by
    rintro task now grace count ⟨rest, htask, houtcome⟩
    have hstands := hupholds.tasks task (.prune now grace) rest htask
    obtain rfl := Procedure.eq_done_of_outcome? houtcome
    exact Sweep.removals_of_done hstands
  total := by
    intro hpruned
    rw [← hupholds.numbered.sum_countP_past, Finset.sum_range, ← Fin.sum_univ_fun_getElem]
    exact Finset.sum_congr rfl fun task _ => pruned_eq_removals hupholds hpruned task.isLt
  balance := hbalanced.balance
  failed := by
    rintro task now grace f ⟨rest, htask, houtcome⟩
    have hstands := hupholds.tasks task (.prune now grace) rest htask
    obtain rfl := Procedure.eq_fail_of_outcome? houtcome
    exact Sweep.not_ranged_of_fail hstands

/-- What those who prune a table of tokens remove, alone and among others. -/
structure Clearance (tables : MemoryTables) : Prop where
  /-- With nothing in between a pruning removes what is stale, and another one that is not made
  later finds nothing. -/
  alone : ∀ (now : Instant) (grace : Int) (log : List Event) (task : Nat) (chances : List Chance),
    Ranged (tables .tokens).entries grace → (tables .tokens).entries.length < chances.length →
      ∃ count left, (prune now grace).alone .reliable task chances ⟨tables, log⟩ =
          (.done count, left) ∧
        Cleared now grace tables left.tables count ∧
        ∀ (earlier : Instant) (other : Nat) (more : List Chance), earlier ≤ now →
          (tables .tokens).entries.length < more.length →
            ∃ found, (prune earlier grace).alone .reliable other more left = (.done 0, found) ∧
              found.tables = left.tables
  /-- While others redeem and prune, an entry that vanishes is removed by a pruning, and it is
  unused and stale then. -/
  removal : ∀ (moves : List (Move desk)) (move : Move desk) (key : String)
    (entry : Versioned BootstrapToken),
    Unrepeated tables ((Office.opening tables).after .reliable moves).world.log →
      ((Office.opening tables).after .reliable moves).world.find? .tokens key = some entry →
      ((Office.opening tables).after .reliable (moves ++ [move])).world.find? .tokens key = none →
        ∃ task chance now grace rest, move = .advance task chance ∧
          ((Office.opening tables).after .reliable moves).tasks[task]? =
            some ⟨.prune now grace, rest⟩ ∧ Stale entry.value now grace
  accounts : ∀ moves : List (Move desk),
    Unrepeated tables ((Office.opening tables).after .reliable moves).world.log →
      Accounts tables ((Office.opening tables).after .reliable moves)
  /-- A pruning that has listed the entries ends after as many moves of its own. -/
  ended : ∀ (moves more : List (Move desk)) (task : Nat) (now : Instant) (grace : Int)
    (rest : Procedure Nat) (listed : Entries BootstrapToken),
    Unrepeated tables ((Office.opening tables).after .reliable moves).world.log →
      ((Office.opening tables).after .reliable moves).tasks[task]? =
        some ⟨.prune now grace, rest⟩ →
      (((Office.opening tables).after .reliable moves).world.past task).head? =
        some (listing task listed) →
      listed.length ≤ more.countP (Move.isBy task) →
        ∃ outcome, ((Office.opening tables).after .reliable (moves ++ more)).Ended task
          (.prune now grace) outcome

theorem clearance (tables : MemoryTables) (hdistinct : (tables .tokens).entries.Distinct) :
    Clearance tables where
  alone := by
    intro now grace log task chances hranged hchances
    obtain ⟨count, left, hrun, hcount, hleft⟩ :=
      alone_prune (w := ⟨tables, log⟩) task now hdistinct hranged hchances
    refine ⟨count, left, hrun, cleared_of_tables hcount hleft, ?_⟩
    intro earlier other more hle hmore
    have hremaining : (left.tables .tokens).entries =
        remaining now grace (tables .tokens).entries := by
      rw [hleft, Function.update_self]
    have hshort : (left.tables .tokens).entries.length ≤ (tables .tokens).entries.length := by
      rw [hremaining]
      exact List.length_filter_le _ _
    exact alone_prune_again hle hdistinct hranged hremaining (hshort.trans_lt hmore)
  removal := by
    intro moves move key entry hunrepeated hfind hgone
    rw [Office.after_append] at hgone
    exact stale_of_vanished (upholds_after hdistinct hunrepeated) hfind hgone
  accounts := fun moves hunrepeated =>
    accounts_of_upholds (upholds_after hdistinct hunrepeated)
      (Office.balanced_after hdistinct moves)
  ended := by
    intro moves more task now grace rest listed hunrepeated htask hlisted hcount
    have hstands := (upholds_after hdistinct hunrepeated).tasks task (.prune now grace) rest htask
    rw [Office.after_append]
    exact Office.ended_of_endsWithin more htask (Sweep.endsWithin hstands hlisted) hcount

/-- The tables with a token that was issued and not used. -/
def shelf : MemoryTables := (Office.run .reliable (race.take 4)).world.tables

/-- A day after the token has expired, two list it before the first of them removes it. -/
def sweeps : List (Move desk) :=
  [.start (.prune (Instant.ofSeconds 133201) 86400),
    .start (.prune (Instant.ofSeconds 133201) 86400), .advance 0 noon, .advance 1 noon,
    .advance 0 noon, .advance 1 noon]

/-- One of the two prunings has removed the token, and the other one does not count it. -/
theorem clearance_twice :
    (((Office.opening shelf).after .reliable sweeps).tasks.map pruned).sum = 1 := by
  have hunrepeated : Unrepeated shelf ((Office.opening shelf).after .reliable sweeps).world.log :=
    unrepeated_of_none_entered rfl
  refine ((clearance shelf (List.nodup_singleton _)).accounts sweeps hunrepeated).total ?_
  intro task now grace rest htask
  match task, htask with
  | 0, rfl => exact ⟨1, rfl⟩
  | 1, rfl => exact ⟨0, rfl⟩

end Run

end CertAuthority.Tokens
