import CertAuthority.Proofs.Office.Conduct
import CertAuthority.Proofs.Office.Course
import CertAuthority.Proofs.Time.Instant
import CertAuthority.Token.Store

/-!
# Tokens are spent once

Tokens are issued, redeemed and pruned at the same time, by any number of callers.  A token that
was not redeemed is at its first revision, and one that was redeemed is at its second: redeeming
writes at the revision that it read, so of two that read the first revision one comes too late, and
pruning removes at the first revision only.
-/

namespace CertAuthority.Tokens

open Versioned (firstRevision nextRevision)

/-- What is asked of the tokens. -/
inductive Errand where
  | issue (order : Order)
  /-- A token is redeemed in one round and as many more as are given, then begun anew. -/
  | redeem (redemption : Redemption) (rounds : Nat)
  | prune (now : Instant) (grace : Int)

/-- The desk at which tokens are issued, redeemed and pruned. -/
def desk : Interface where
  Operation := Errand
  Result
    | .issue _ => BootstrapToken
    | .redeem _ _ => BootstrapToken
    | .prune _ _ => Nat
  procedure
    | .issue order => issue order
    | .redeem redemption rounds => redeem redemption (rounds + 1)
    | .prune now grace => prune now grace

/-- What stands under a key: nothing or a token that was not used, which nobody has changed; or
a token that was used, by one change that is the only one there ever was. -/
inductive Spending (key : String) : Option (Versioned BootstrapToken) → List Event → Prop where
  | unspent {held? : Option (Versioned BootstrapToken)} {writes : List Event}
    (hentry : ∀ entry, held? = some entry →
      entry.revision = firstRevision ∧ entry.value.isUsed = false)
    (hwrites : writes.filter (·.isChange) = []) : Spending key held? writes
  | spent {token : BootstrapToken} {writes : List Event} (task : Nat) (hused : token.isUsed)
    (hwrites : writes.filter (·.isChange) = [.change task .tokens key token firstRevision]) :
    Spending key (some ⟨token, nextRevision firstRevision⟩) writes

/-- The law of the tokens. -/
def Law : World → Prop :=
  World.Ruled .tokens Spending

namespace Spending

variable {key : String} {writes : List Event} {held : Versioned BootstrapToken}

theorem revision_of_unused (hspending : Spending key (some held) writes)
    (hunused : held.value.isUsed = false) : held.revision = firstRevision := by
  cases hspending with
  | unspent hentry hwrites => exact (hentry held rfl).1
  | spent task hused hwrites => simp [hunused] at hused

/-- An entry at the first revision was not changed. -/
theorem no_change (hspending : Spending key (some held) writes)
    (hrevision : held.revision = firstRevision) : writes.filter (·.isChange) = [] := by
  cases hspending with
  | unspent hentry hwrites => exact hwrites
  | spent task hused hwrites => cases hrevision

theorem create (hspending : Spending key none writes) (task : Nat) {token : BootstrapToken}
    (hunused : token.isUsed = false) :
    Spending key (some (.fresh token)) (writes ++ [.creation task .tokens key token]) := by
  cases hspending with
  | unspent hentry hwrites =>
      apply unspent
      · intro entry hsome
        cases hsome
        exact ⟨rfl, hunused⟩
      · rw [List.filter_append, hwrites]
        rfl

theorem update (hspending : Spending key (some held) writes)
    (hrevision : held.revision = firstRevision) (task : Nat) {token : BootstrapToken}
    (hused : token.isUsed) :
    Spending key (some ⟨token, nextRevision firstRevision⟩)
      (writes ++ [.change task .tokens key token firstRevision]) := by
  apply spent task hused
  rw [List.filter_append, hspending.no_change hrevision]
  rfl

theorem delete (hspending : Spending key (some held) writes)
    (hrevision : held.revision = firstRevision) (task : Nat) :
    Spending key none (writes ++ [.removal task .tokens key firstRevision]) := by
  apply unspent
  · simp
  · rw [List.filter_append, hspending.no_change hrevision]
    rfl

end Spending

theorem isUsed_create (tokenId : TokenId) (expectedCommonName : Option String)
    (allowedSourceIps : Option AddressSet) (createdBy comment : String)
    (createdAt expiresAt : Instant) :
    (BootstrapToken.create tokenId expectedCommonName allowedSourceIps createdBy comment createdAt
      expiresAt).isUsed = false :=
  rfl

theorem isUsed_markUsed (token : BootstrapToken) (now : Instant) (commonName : String)
    (source : IpAddress) : (token.markUsed now commonName source).isUsed = true :=
  rfl

/-- A token has not expired before its end. -/
theorem isExpiredAt_eq_false_iff {token : BootstrapToken} {now : Instant} :
    token.isExpiredAt now = false ↔ now < token.expiresAt := by
  rw [BootstrapToken.isExpiredAt, decide_eq_false_iff_not, Instant.not_le]

/-- A token may be redeemed in time, once, from where and by whom it is meant for. -/
theorem checkRedeemable_eq_ok_iff {token : BootstrapToken} {now : Instant} {presented : String}
    {source : IpAddress} :
    token.checkRedeemable now presented source = .ok () ↔
      token.isExpiredAt now = false ∧ token.isUsed = false ∧ token.allowsSource source ∧
        ∀ expected, token.expectedCommonName = some expected → expected = presented := by
  unfold BootstrapToken.checkRedeemable
  cases token.isExpiredAt now with
  | true => simp
  | false =>
      cases token.isUsed with
      | true => simp
      | false =>
          cases token.allowsSource source with
          | false => simp
          | true =>
              cases token.expectedCommonName with
              | none => simp
              | some expected => by_cases hsame : expected = presented <;> simp [hsame]

theorem redeemable_unused {token : BootstrapToken} {now : Instant} {presented : String}
    {source : IpAddress} (hcheck : token.checkRedeemable now presented source = .ok ()) :
    token.isUsed = false :=
  (checkRedeemable_eq_ok_iff.mp hcheck).2.1

/-- A token that was used cannot be redeemed. -/
theorem checkRedeemable_of_isUsed {token : BootstrapToken} (hused : token.isUsed) (now : Instant)
    (presented : String) (source : IpAddress) :
    ∃ reason, token.checkRedeemable now presented source = .error reason := by
  cases hcheck : token.checkRedeemable now presented source with
  | error reason => exact ⟨reason, rfl⟩
  | ok _ =>
      rw [redeemable_unused hcheck] at hused
      cases hused

section Conduct

variable {stores : Stores} {task : Nat} {w : World}

theorem Law.create {found : World} (hlaw : Law found) (chance : Chance) (key : String)
    {token : BootstrapToken} (hunused : token.isUsed = false) :
    Law (found.after stores chance task (.table .tokens (.create key token))) := by
  apply World.Ruled.after_create hlaw
  intro hnew
  have hkey := hlaw key
  rw [hnew] at hkey
  exact hkey.create task hunused

theorem Law.update {found : World} (hlaw : Law found) (chance : Chance) (key : String)
    {token : BootstrapToken} (hused : token.isUsed) :
    Law (found.after stores chance task (.table .tokens (.update key token firstRevision))) := by
  apply World.Ruled.after_update hlaw
  intro held hheld hrevision
  have hkey := hlaw key
  rw [hheld] at hkey
  exact hkey.update hrevision task hused

theorem Law.delete {found : World} (hlaw : Law found) (chance : Chance) (key : String) :
    Law (found.after stores chance task (.table .tokens (.delete key firstRevision))) := by
  apply World.Ruled.after_delete hlaw
  intro held hheld hrevision
  have hkey := hlaw key
  rw [hheld] at hkey
  exact hkey.delete hrevision task

/-- Whoever promises nothing. -/
def anything {α : Type} : Promise α := fun _ _ => True

theorem keeps_entered (token : BootstrapToken) {retry : Procedure BootstrapToken}
    (hretry : retry.Keeps Law stores task anything w) (reply : Except CaError Nat) :
    (entered token retry reply).Keeps Law stores task anything w := by
  unfold entered
  split
  · trivial
  · exact hretry
  · trivial

theorem keeps_issueFrom (order : Order) (attempts : Nat) (w : World) :
    (issueFrom order attempts).Keeps Law stores task anything w := by
  induction attempts generalizing w with
  | zero => trivial
  | succ attempts ih =>
      refine ⟨trivial, fun found _ _ hlaw chance => ⟨hlaw.after_other stores chance task rfl, ?_⟩⟩
      generalize found.reply stores chance .now = now
      change Procedure.Keeps Law stores task anything
        ((make order now).bind fun token =>
          .call (.table .tokens (.create token.tokenId.text token))
            (entered token (issueFrom order attempts))) _
      unfold make
      split
      · trivial
      · refine ⟨trivial, fun found _ _ hlaw chance => ⟨hlaw.after_other stores chance task rfl, ?_⟩⟩
        split
        · trivial
        · refine ⟨trivial, fun found _ _ hlaw chance => ⟨?_, keeps_entered _ (ih _) _⟩⟩
          exact hlaw.create chance _ (isUsed_create _ _ _ _ _ _ _)

theorem keeps_issue (order : Order) (w : World) :
    (issue order).Keeps Law stores task anything w := by
  unfold issue
  split
  · trivial
  · exact keeps_issueFrom order maxAttempts w

/-- Goes through a listing in which tokens that were not used are at their first revision. -/
theorem keeps_pruneEntries (now : Instant) (grace : Int) (entries : Entries BootstrapToken)
    (count : Nat)
    (hentries : ∀ entry ∈ entries, entry.2.value.isUsed = false →
      entry.2.revision = firstRevision) (w : World) :
    (pruneEntries now grace entries count).Keeps Law stores task anything w := by
  induction entries generalizing count w with
  | nil => trivial
  | cons head tail ih =>
      obtain ⟨key, entry⟩ := head
      have htail : ∀ entry ∈ tail, entry.2.value.isUsed = false →
          entry.2.revision = firstRevision :=
        fun entry hentry => hentries entry (List.mem_cons_of_mem _ hentry)
      unfold pruneEntries
      split
      · trivial
      · exact ih count htail w
      · next hstale =>
          have hunused : entry.value.isUsed = false := by
            by_contra hused
            rw [Bool.not_eq_false] at hused
            simp [isStale?, hused] at hstale
          have hfirst := hentries (key, entry) List.mem_cons_self hunused
          refine ⟨trivial, fun found _ _ hlaw chance => ⟨?_, ?_⟩⟩
          · simp only at hfirst
            rw [hfirst]
            exact hlaw.delete chance key
          · unfold removed
            split
            · exact ih _ htail _
            · exact ih _ htail _
            · trivial

theorem keeps_prune (now : Instant) (grace : Int) (w : World) :
    (prune now grace).Keeps Law stores task anything w := by
  refine ⟨trivial, fun found _ hreachable hlaw chance =>
    ⟨hlaw.after_other stores chance task rfl, ?_⟩⟩
  rcases found.reply_list stores chance .tokens with ⟨error, -, hreply⟩ | hreply
  · rw [hreply]
    trivial
  · rw [hreply]
    apply keeps_pruneEntries
    intro entry hentry hunused
    have hfind := Entries.find?_eq_some_of_mem (hreachable.orderly .tokens) hentry
    have hkey := hlaw entry.1
    rw [World.find?, MemoryTable.find?, hfind] at hkey
    exact hkey.revision_of_unused hunused

/-- That a task has redeemed a token: it read the clock and the token, and its one write marks the
token as used then, by its own name and from its own address. -/
structure Redeemed (redemption : Redemption) (task : Nat) (past : List Event)
    (token : BootstrapToken) : Prop where
  wrote : past.filter (·.isWrite) =
    [.change task .tokens redemption.tokenId.text token firstRevision]
  marked : ∃ (now : Instant) (read : Versioned BootstrapToken),
    ⟨task, .now, now⟩ ∈ past ∧
      ⟨task, .table .tokens (.get redemption.tokenId.text), .ok (some read)⟩ ∈ past ∧
      token = read.value.markUsed now redemption.commonName redemption.source

/-- That a token was used, and stands at the revision after its only change. -/
def Spent (id : TokenId) (w : World) : Prop :=
  ∃ token : BootstrapToken, token.isUsed ∧
    w.find? .tokens id.text = some ⟨token, nextRevision firstRevision⟩

/-- An error of any kind. -/
def anyCause : CaError → Prop := fun _ => True

/-- Who redeems a token has either redeemed it, or has written nothing and fails as soon as the
token is spent. -/
def redeeming (stores : Stores) (redemption : Redemption) (rounds task : Nat) :
    Promise BootstrapToken
  | past, .done token => Redeemed redemption task past token
  | past, rest =>
    past.filter (·.isWrite) = [] ∧
      rest.FailsWithin (Spent redemption.tokenId) stores anyCause (redeem redemption (rounds + 1)) 4

/-- Reading a spent token ends in an error. -/
theorem failsWithin_examine (redemption : Redemption) (now : Instant)
    (again loop : Procedure BootstrapToken) {w : World} (hspent : Spent redemption.tokenId w)
    (chance : Chance) (moves : Nat) :
    (examine redemption now again
      (w.reply stores chance (.table .tokens (.get redemption.tokenId.text)))).FailsWithin
        (Spent redemption.tokenId) stores anyCause loop moves := by
  obtain ⟨token, hused, hfind⟩ := hspent
  rcases w.reply_get stores chance .tokens redemption.tokenId.text with ⟨error, -, hreply⟩ | hreply
  · rw [hreply]
    exact Procedure.failsWithin_error trivial _ _
  · rw [hreply, hfind]
    obtain ⟨reason, hcheck⟩ :=
      checkRedeemable_of_isUsed hused now redemption.commonName redemption.source
    simp only [examine, spend, hcheck]
    exact Procedure.failsWithin_error trivial _ _

theorem failsWithin_redeem_succ (redemption : Redemption) (rounds : Nat)
    (loop : Procedure BootstrapToken) :
    (redeem redemption (rounds + 1)).FailsWithin (Spent redemption.tokenId) stores anyCause
      loop 2 :=
  fun _ _ _ _ hspent chance => failsWithin_examine redemption _ _ loop hspent chance 0

theorem failsWithin_redeem (redemption : Redemption) (rounds left : Nat) :
    (redeem redemption left).FailsWithin (Spent redemption.tokenId) stores anyCause
      (redeem redemption (rounds + 1)) 3 := by
  cases left with
  | zero => exact failsWithin_redeem_succ redemption rounds _
  | succ left => exact (failsWithin_redeem_succ redemption left _).succ

/-- Writing at the first revision comes too late for a spent token. -/
theorem failsWithin_update (redemption : Redemption) (rounds left : Nat)
    (token : BootstrapToken) :
    (Procedure.call (.table .tokens (.update redemption.tokenId.text token firstRevision))
      (written token (redeem redemption left))).FailsWithin (Spent redemption.tokenId) stores
        anyCause (redeem redemption (rounds + 1)) 4 := by
  intro w hspent chance
  obtain ⟨used, hused, hfind⟩ := hspent
  rcases w.update_cases stores chance 0 .tokens redemption.tokenId.text token firstRevision with
    ⟨error, -, hreply, -⟩ | ⟨held, hheld, hrevision, -, -⟩
  · rw [hreply]
    unfold written
    split
    · next hok => cases hok
    · exact failsWithin_redeem redemption rounds left
    · exact Procedure.failsWithin_error trivial _ _
  · rw [hfind] at hheld
    cases hheld
    cases hrevision

/-- Writes the token that was read, and begins anew if it was changed in between. -/
theorem keeps_spend {redemption : Redemption} {rounds left : Nat} {now : Instant}
    {read : Versioned BootstrapToken}
    (hagain : ∀ w : World, (w.past task).filter (·.isWrite) = [] →
      (redeem redemption left).Keeps Law stores task (redeeming stores redemption rounds task) w)
    (hwrites : (w.past task).filter (·.isWrite) = [])
    (hnow : ⟨task, .now, now⟩ ∈ w.past task)
    (hread : ⟨task, .table .tokens (.get redemption.tokenId.text), .ok (some read)⟩ ∈ w.past task)
    (hfirst : read.value.isUsed = false → read.revision = firstRevision) :
    (spend redemption now read (redeem redemption left)).Keeps Law stores task
      (redeeming stores redemption rounds task) w := by
  unfold spend
  split
  · exact ⟨hwrites, Procedure.failsWithin_error trivial _ _⟩
  · next hcheck =>
      rw [hfirst (redeemable_unused hcheck)]
      have hused := isUsed_markUsed read.value now redemption.commonName redemption.source
      generalize hmarked : read.value.markUsed now redemption.commonName redemption.source = token
        at hused ⊢
      refine ⟨⟨hwrites, failsWithin_update redemption rounds left token⟩, ?_⟩
      intro found hfound _ hlaw chance
      refine ⟨hlaw.update chance _ hused, ?_⟩
      have hpast := hfound.past_after stores chance
        (.table .tokens (.update redemption.tokenId.text token firstRevision))
      rcases found.update_cases stores chance task .tokens redemption.tokenId.text token
          firstRevision with ⟨error, -, hreply, -⟩ | ⟨-, -, -, hreply, -⟩
      · rw [hreply] at hpast ⊢
        generalize found.after stores chance task _ = later at hpast ⊢
        have hnone : (later.past task).filter (·.isWrite) = [] := by
          rw [hpast, List.filter_append, hwrites]
          rfl
        unfold written
        split
        · next hok => cases hok
        · exact hagain later hnone
        · exact ⟨hnone, Procedure.failsWithin_error trivial _ _⟩
      · rw [hreply] at hpast ⊢
        refine ⟨?_, now, read, ?_, ?_, hmarked.symm⟩
        · rw [hpast, List.filter_append, hwrites]
          rfl
        · rw [hpast]
          exact List.mem_append_left _ hnow
        · rw [hpast]
          exact List.mem_append_left _ hread

/-- Reads the token.  What was read was in the table then, so that the law tells its revision. -/
theorem keeps_examine {redemption : Redemption} {rounds left : Nat} {now : Instant}
    (hagain : ∀ w : World, (w.past task).filter (·.isWrite) = [] →
      (redeem redemption left).Keeps Law stores task (redeeming stores redemption rounds task) w)
    (hwrites : (w.past task).filter (·.isWrite) = [])
    (hnow : ⟨task, .now, now⟩ ∈ w.past task) :
    (Procedure.call (.table .tokens (.get redemption.tokenId.text))
      (examine redemption now (redeem redemption left))).Keeps Law stores task
        (redeeming stores redemption rounds task) w := by
  refine ⟨⟨hwrites, ?_⟩, ?_⟩
  · exact fun w hspent chance => failsWithin_examine redemption now _ _ hspent chance 3
  · intro found hfound _ hlaw chance
    refine ⟨hlaw.after_other stores chance task rfl, ?_⟩
    have hpast := hfound.past_after stores chance (.table .tokens (.get redemption.tokenId.text))
    have hkey := hlaw redemption.tokenId.text
    have hnone : ((found.after stores chance task
        (.table .tokens (.get redemption.tokenId.text))).past task).filter (·.isWrite) = [] := by
      rw [hpast, List.filter_append, hwrites]
      rfl
    rcases found.reply_get stores chance .tokens redemption.tokenId.text with
      ⟨error, -, hreply⟩ | hreply
    · rw [hreply]
      exact ⟨hnone, Procedure.failsWithin_error trivial _ _⟩
    · rw [hreply] at hpast ⊢
      cases hfind : found.find? .tokens redemption.tokenId.text with
      | none => exact ⟨hnone, Procedure.failsWithin_error trivial _ _⟩
      | some read =>
          rw [hfind] at hpast hkey
          apply keeps_spend hagain hnone _ _ hkey.revision_of_unused
          · rw [hpast]
            exact List.mem_append_left _ hnow
          · rw [hpast]
            exact List.mem_append_right _ List.mem_cons_self

theorem keeps_redeem (redemption : Redemption) (rounds left : Nat)
    (hwrites : (w.past task).filter (·.isWrite) = []) :
    (redeem redemption left).Keeps Law stores task (redeeming stores redemption rounds task) w := by
  induction left generalizing w with
  | zero => exact ⟨hwrites, (failsWithin_redeem redemption rounds 0).succ⟩
  | succ left ih =>
      refine ⟨⟨hwrites, (failsWithin_redeem redemption rounds (left + 1)).succ⟩, ?_⟩
      intro found hfound _ hlaw chance
      refine ⟨hlaw.after_other stores chance task rfl, ?_⟩
      have hpast := hfound.past_after stores chance .now
      apply keeps_examine fun w hw => ih hw
      · rw [hpast, List.filter_append, hwrites]
        rfl
      · rw [hpast]
        exact List.mem_append_right _ List.mem_cons_self

/-- What each caller promises. -/
def promise (stores : Stores) : desk.Promises
  | .issue _, _ => anything
  | .redeem redemption rounds, task => redeeming stores redemption rounds task
  | .prune _ _, _ => anything

theorem desk_keeps (stores : Stores) : desk.Keeps Law stores (promise stores) where
  empty := fun _ => .unspent (by rintro entry ⟨⟩) rfl
  start := by
    intro operation task w _ _ hpast
    cases operation with
    | issue order => exact keeps_issue order w
    | redeem redemption rounds => exact keeps_redeem redemption rounds _ (by rw [hpast]; rfl)
    | prune now grace => exact keeps_prune now grace w
  again := by
    intro operation task w _ _ hpromise
    cases operation with
    | issue order => exact keeps_issue order w
    | redeem redemption rounds => exact keeps_redeem redemption rounds _ hpromise.1
    | prune now grace => exact keeps_prune now grace w

end Conduct

section Run

variable {stores : Stores} {s : Office desk}

theorem redeemed_of_ended (habides : s.Abides Law stores (promise stores)) {task rounds : Nat}
    {redemption : Redemption} {token : BootstrapToken}
    (hended : s.Ended task (.redeem redemption rounds) (.ok token)) :
    Redeemed redemption task (s.world.past task) token := by
  obtain ⟨rest, htask, houtcome⟩ := hended
  have hpromise := (habides.tasks task _ rest htask).promised
  cases rest with
  | done found =>
      cases houtcome
      exact hpromise
  | fail f => cases f <;> cases houtcome
  | call e next => cases houtcome

theorem Redeemed.changed {w : World} {task : Nat} {redemption : Redemption}
    {token : BootstrapToken} (hredeemed : Redeemed redemption task (w.past task) token) :
    .change task .tokens redemption.tokenId.text token firstRevision ∈ w.log := by
  have hmem : .change task .tokens redemption.tokenId.text token firstRevision ∈
      (w.past task).filter (·.isWrite) := by
    rw [hredeemed.wrote]
    exact List.mem_cons_self
  exact (World.mem_past_iff.mp (List.mem_filter.mp hmem).1).1

/-- A token that somebody has changed was changed by nobody else, and stands. -/
theorem Law.stands_of_change {w : World} (hlaw : Law w) {task revision : Nat} {key : String}
    {token : BootstrapToken} (hchange : .change task .tokens key token revision ∈ w.log) :
    (w.writes .tokens key).filter (·.isChange) = [.change task .tokens key token revision] ∧
      w.find? .tokens key = some ⟨token, nextRevision firstRevision⟩ ∧ token.isUsed := by
  have hmem : .change task .tokens key token revision ∈
      (w.writes .tokens key).filter (·.isChange) :=
    List.mem_filter.mpr ⟨List.mem_filter.mpr ⟨hchange, by simp⟩, rfl⟩
  have hkey := hlaw key
  generalize w.find? .tokens key = held? at hkey ⊢
  cases hkey with
  | unspent hentry hwrites =>
      rw [hwrites] at hmem
      cases hmem
  | spent other hused hwrites =>
      rw [hwrites, List.mem_singleton] at hmem
      cases hmem
      exact ⟨hwrites, rfl, hused⟩

/-- A token is changed at its first revision. -/
theorem Law.revision_of_change {w : World} (hlaw : Law w) {task revision : Nat} {key : String}
    {token : BootstrapToken} (hchange : .change task .tokens key token revision ∈ w.log) :
    revision = firstRevision := by
  have honly := (hlaw.stands_of_change hchange).1
  have hkey := hlaw key
  generalize w.find? .tokens key = held? at hkey
  cases hkey with
  | unspent hentry hwrites => cases hwrites.symm.trans honly
  | spent other hused hwrites =>
      cases hwrites.symm.trans honly
      rfl

/-- Only one change of a token was ever accepted. -/
theorem Law.eq_of_changes {w : World} (hlaw : Law w) {key : String}
    {task other revision later : Nat} {token found : BootstrapToken}
    (hchange : .change task .tokens key token revision ∈ w.log)
    (hother : .change other .tokens key found later ∈ w.log) : other = task := by
  have honly := (hlaw.stands_of_change hother).1
  rw [(hlaw.stands_of_change hchange).1] at honly
  simp only [List.cons.injEq, Event.change, Event.mk.injEq] at honly
  exact honly.1.1.symm

/-- The write of whoever redeemed a token is the only change of it, and its token stands. -/
theorem stands_of_redeemed (hlaw : Law s.world) {task : Nat} {redemption : Redemption}
    {token : BootstrapToken}
    (hredeemed : Redeemed redemption task (s.world.past task) token) :
    (s.world.writes .tokens redemption.tokenId.text).filter (·.isChange) =
        [.change task .tokens redemption.tokenId.text token firstRevision] ∧
      s.world.find? .tokens redemption.tokenId.text =
        some ⟨token, nextRevision firstRevision⟩ ∧
      token.isUsed := by
  exact hlaw.stands_of_change hredeemed.changed

/-- Two tasks that redeemed the same token are one. -/
theorem eq_of_redeemed (hlaw : Law s.world) {task other : Nat} {redemption rival : Redemption}
    {token found : BootstrapToken} (hid : rival.tokenId = redemption.tokenId)
    (hredeemed : Redeemed redemption task (s.world.past task) token)
    (hother : Redeemed rival other (s.world.past other) found) : other = task := by
  have hchanged := hother.changed
  rw [hid] at hchanged
  exact hlaw.eq_of_changes hredeemed.changed hchanged

/-- Who has not redeemed its token has written nothing, and is bound to fail. -/
theorem fails_of_not_done {redemption : Redemption} {rounds task : Nat} {past : List Event}
    {rest : Procedure BootstrapToken} (hpromise : redeeming stores redemption rounds task past rest)
    (hlost : ∀ token, rest ≠ .done token) :
    past.filter (·.isWrite) = [] ∧ rest.FailsWithin (Spent redemption.tokenId) stores anyCause
      (redeem redemption (rounds + 1)) 4 := by
  cases rest with
  | done token => exact absurd rfl (hlost token)
  | fail f => exact hpromise
  | call e next => exact hpromise

/-- Of all who redeem a token at most one succeeds.  From then on its token stands as it returned
it, and everybody else who redeems the token writes nothing and fails, at the latest at the fourth
move from there. -/
theorem redeemed_once (stores : Stores) (moves more : List (Move desk)) (winner rounds : Nat)
    (redemption : Redemption) (token : BootstrapToken)
    (hwon : (Office.run stores moves).Ended winner (.redeem redemption rounds) (.ok token)) :
    Redeemed redemption winner ((Office.run stores (moves ++ more)).world.past winner) token ∧
      (Office.run stores (moves ++ more)).world.find? .tokens redemption.tokenId.text =
        some ⟨token, nextRevision firstRevision⟩ ∧
      ∀ (loser : Nat) (other : Redemption) (left : Nat) (rest : Procedure BootstrapToken),
        loser ≠ winner → other.tokenId = redemption.tokenId →
        (Office.run stores (moves ++ more)).tasks[loser]? = some ⟨.redeem other left, rest⟩ →
          ((Office.run stores (moves ++ more)).world.past loser).filter (·.isWrite) = [] ∧
          (∀ outcome, rest.outcome? = some outcome → ∃ e, outcome = .error (.error e)) ∧
          ∀ further : List (Move desk), 4 ≤ further.countP (Move.isBy loser) →
            ∃ e, (Office.run stores (moves ++ more ++ further)).Ended loser
              (.redeem other left) (.error (.error e)) := by
  have habides (later : List (Move desk)) := Office.abides_run (desk_keeps stores) later
  have hredeemed (later : List (Move desk)) :
      Redeemed redemption winner ((Office.run stores (moves ++ later)).world.past winner)
        token := by
    apply redeemed_of_ended (habides _)
    rw [Office.run_append]
    exact hwon.after stores later
  have hstands (later : List (Move desk)) :=
    stands_of_redeemed (habides (moves ++ later)).lawful (hredeemed later)
  refine ⟨hredeemed more, (hstands more).2.1, ?_⟩
  intro loser other left rest hloser hid htask
  have hpromise := ((habides _).tasks loser (.redeem other left) rest htask).promised
  have hlost : ∀ found, rest ≠ .done found := by
    rintro found rfl
    have hother : Redeemed other loser _ found := hpromise
    exact hloser (eq_of_redeemed (habides _).lawful hid (hredeemed more) hother)
  obtain ⟨hwrites, hfails⟩ := fails_of_not_done hpromise hlost
  refine ⟨hwrites, ?_, ?_⟩
  · intro outcome houtcome
    obtain ⟨e, -, herror⟩ := hfails.error_of_outcome houtcome
    exact ⟨e, herror⟩
  · intro further hcount
    rw [Office.run_append]
    obtain ⟨e, -, hended⟩ := Office.ended_of_failsWithin further htask hfails (fun before _ => by
      rw [← Office.run_append, List.append_assoc, hid]
      obtain ⟨-, hfind, hused⟩ := hstands (more ++ before)
      exact ⟨token, hused, hfind⟩) hcount
    exact ⟨e, hended⟩

/-- The moment and the bytes that an example is left to. -/
def noon : Chance := ⟨Instant.ofSeconds 43200, fun _ => 7, none⟩

/-- The redemption of the token of an example. -/
def redemptionBy (commonName : String) : Redemption :=
  ⟨identifierOf (List.replicate 32 7), commonName, .v4 10 0 0 7⟩

/-- A token is issued, two read it, and the first of them writes. -/
def race : List (Move desk) :=
  [.start (.issue ⟨none, 3600, none, "admin", ""⟩), .advance 0 noon, .advance 0 noon,
    .advance 0 noon, .start (.redeem (redemptionBy "agent") 0),
    .start (.redeem (redemptionBy "rival") 0), .advance 1 noon, .advance 2 noon,
    .advance 1 noon, .advance 2 noon, .advance 1 noon]

/-- The token as the first of the two has redeemed it. -/
def spoils : BootstrapToken :=
  (BootstrapToken.create (identifierOf (List.replicate 32 7)) none none "admin" ""
    (Instant.ofSeconds 43200) (Instant.ofSeconds 46800)).markUsed (Instant.ofSeconds 43200) "agent"
      (.v4 10 0 0 7)

theorem redeemed_once_race :
    (Office.run .reliable race).Ended 1 (.redeem (redemptionBy "agent") 0) (.ok spoils) ∧
      (Office.run .reliable (race ++ [])).world.find? .tokens (redemptionBy "agent").tokenId.text =
        some ⟨spoils, 2⟩ ∧
      ∃ e, (Office.run (I := desk) .reliable
        (race ++ [] ++ List.replicate 4 (.advance 2 noon))).Ended 2
          (.redeem (redemptionBy "rival") 0) (.error (.error e)) := by
  have hwon : (Office.run .reliable race).Ended 1 (.redeem (redemptionBy "agent") 0)
      (.ok spoils) := ⟨.done spoils, rfl, rfl⟩
  obtain ⟨-, hstands, hothers⟩ := redeemed_once .reliable race [] 1 0 _ _ hwon
  obtain ⟨-, -, hfails⟩ := hothers 2 (redemptionBy "rival") 0 _ (by decide) rfl rfl
  exact ⟨hwon, hstands, hfails (List.replicate 4 (.advance 2 noon)) (by decide)⟩

end Run

end CertAuthority.Tokens
