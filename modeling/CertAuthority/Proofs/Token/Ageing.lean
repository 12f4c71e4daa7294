import CertAuthority.Proofs.Office.Opening
import CertAuthority.Proofs.Token.Spending

/-!
# Tokens only age

A table of tokens may open with any tokens at any revisions.  As long as no identifier is given to
a second token, what stands under an identifier only goes one way: a token that was not used is used
or pruned, and nothing else ever happens to it.  Whoever writes at the revision of a token that it
has seen unused therefore writes that token, or comes too late.
-/

namespace CertAuthority.Tokens

open Versioned (nextRevision)

/-- How many tokens there were under a key: the one that the table opened with, and those that it
has accepted since. -/
def births (tables : MemoryTables) (log : List Event) (key : String) : Nat :=
  (if ((tables .tokens).find? key).isSome then 1 else 0) +
    log.countP fun event => event.enters .tokens && event.writesAt .tokens key

/-- No identifier was given to a second token. -/
def Unrepeated (tables : MemoryTables) (log : List Event) : Prop :=
  ∀ key, births tables log key ≤ 1

section Births

variable {tables : MemoryTables} {log : List Event} {event : Event} {key : String}

theorem births_append (tables : MemoryTables) (log : List Event) (event : Event) (key : String) :
    births tables (log ++ [event]) key = births tables log key +
      if event.enters .tokens && event.writesAt .tokens key then 1 else 0 := by
  rw [births, births, List.countP_append, List.countP_singleton, Nat.add_assoc]

theorem births_le (tables : MemoryTables) (log : List Event) (event : Event) (key : String) :
    births tables log key ≤ births tables (log ++ [event]) key := by
  rw [births_append]
  exact Nat.le_add_right _ _

theorem Unrepeated.earlier (hunrepeated : Unrepeated tables (log ++ [event])) :
    Unrepeated tables log :=
  fun key => (births_le tables log event key).trans (hunrepeated key)

/-- Where no token stood and one was entered, none was entered twice. -/
theorem unrepeated_of_countP_enters (hopened : ∀ key, (tables .tokens).find? key = none)
    (hcount : log.countP (·.enters .tokens) ≤ 1) : Unrepeated tables log := by
  intro key
  rw [births, hopened key]
  calc 0 + log.countP (fun event => event.enters .tokens && event.writesAt .tokens key)
    _ = log.countP fun event => event.enters .tokens && event.writesAt .tokens key := Nat.zero_add _
    _ ≤ log.countP (·.enters .tokens) :=
        List.countP_mono_left fun event _ hboth => (Bool.and_eq_true_iff.mp hboth).1
    _ ≤ 1 := hcount

/-- Where none was entered, each key has the token that it opened with. -/
theorem unrepeated_of_none_entered (hcount : log.countP (·.enters .tokens) = 0) :
    Unrepeated tables log := by
  intro key
  have hnone : log.countP (fun event => event.enters .tokens && event.writesAt .tokens key) = 0 :=
    Nat.eq_zero_of_le_zero (hcount ▸ List.countP_mono_left fun event _ hboth =>
      (Bool.and_eq_true_iff.mp hboth).1)
  rw [births, hnone]
  split <;> omega

end Births

/-- What may become of what stands under an identifier that was given out: a token that was not
used is used or pruned. -/
inductive Onward :
    Option (Versioned BootstrapToken) → Option (Versioned BootstrapToken) → Prop where
  | same (held? : Option (Versioned BootstrapToken)) : Onward held? held?
  | spent {held : Versioned BootstrapToken} {token : BootstrapToken}
    (hunused : held.value.isUsed = false) (hused : token.isUsed) :
    Onward (some held) (some ⟨token, nextRevision held.revision⟩)
  | pruned {held : Versioned BootstrapToken} (hunused : held.value.isUsed = false) :
    Onward (some held) none

/-- That no token which could still be used stands under an identifier. -/
def Gone (held? : Option (Versioned BootstrapToken)) : Prop :=
  ∀ held, held? = some held → held.value.isUsed

theorem gone_none : Gone none := by
  intro held hheld
  cases hheld

theorem nextRevision_ne (revision : Nat) : nextRevision revision ≠ revision := by
  have hlimit : Nat.pow 2 64 = 18446744073709551616 := rfl
  rw [nextRevision, hlimit]
  omega

namespace Onward

variable {first second third : Option (Versioned BootstrapToken)}
  {read held : Versioned BootstrapToken}

theorem trans (hfirst : Onward first second) (hsecond : Onward second third) :
    Onward first third := by
  cases hfirst with
  | same held? => exact hsecond
  | spent hunused hused =>
      cases hsecond with
      | same held? => exact .spent hunused hused
      | spent hlater _ => cases hlater.symm.trans hused
      | pruned hlater => cases hlater.symm.trans hused
  | pruned hunused =>
      cases hsecond with
      | same held? => exact .pruned hunused

/-- At the revision of an entry stands that entry or none. -/
theorem eq_of_revision (honward : Onward (some read) (some held))
    (hrevision : held.revision = read.revision) : held = read := by
  cases honward with
  | same held? => rfl
  | spent hunused hused => exact absurd hrevision (nextRevision_ne _)

theorem gone (honward : Onward first second) (hgone : Gone first) : Gone second := by
  cases honward with
  | same held? => exact hgone
  | spent hunused hused => cases hunused.symm.trans (hgone _ rfl)
  | pruned hunused => exact gone_none

/-- What is not at the revision of an entry any more could only be used. -/
theorem gone_of_moved (honward : Onward (some read) second)
    (hmoved : ∀ held, second = some held → held.revision ≠ read.revision) : Gone second := by
  cases honward with
  | same held? => exact absurd rfl (hmoved read rfl)
  | spent hunused hused =>
      rintro held ⟨⟩
      exact hused
  | pruned hunused => exact gone_none

end Onward

section World

variable {tables : MemoryTables} {w found : World} {key : String}
  {read : Versioned BootstrapToken}

/-- That a world may come of another one: identifiers that were given out stay so, and what stood
under them has gone onward. -/
def Later (tables : MemoryTables) (w later : World) : Prop :=
  ∀ key, 1 ≤ births tables w.log key →
    1 ≤ births tables later.log key ∧ Onward (w.find? .tokens key) (later.find? .tokens key)

/-- That an entry once stood under a key, and what stands there has come of it. -/
structure Seen (tables : MemoryTables) (w : World) (key : String)
    (read : Versioned BootstrapToken) : Prop where
  born : 1 ≤ births tables w.log key
  onward : Onward (some read) (w.find? .tokens key)

/-- That the token of a key is used up. -/
structure Over (tables : MemoryTables) (w : World) (key : String) : Prop where
  born : 1 ≤ births tables w.log key
  gone : Gone (w.find? .tokens key)

theorem Seen.later (hseen : Seen tables w key read) (hlater : Later tables w found) :
    Seen tables found key read where
  born := (hlater key hseen.born).1
  onward := hseen.onward.trans (hlater key hseen.born).2

theorem Over.later (hover : Over tables w key) (hlater : Later tables w found) :
    Over tables found key where
  born := (hlater key hover.born).1
  gone := (hlater key hover.born).2.gone hover.gone

/-- An entry that was seen and is at its revision no more has been used or pruned. -/
theorem Seen.over (hseen : Seen tables w key read)
    (hmoved : ∀ held, w.find? .tokens key = some held → held.revision ≠ read.revision) :
    Over tables w key where
  born := hseen.born
  gone := hseen.onward.gone_of_moved hmoved

/-- An entry that stands at the revision of one that was seen is that one. -/
theorem Seen.eq_of_revision (hseen : Seen tables w key read) {held : Versioned BootstrapToken}
    (hfind : w.find? .tokens key = some held) (hrevision : held.revision = read.revision) :
    held = read := by
  have honward := hseen.onward
  rw [hfind] at honward
  exact honward.eq_of_revision hrevision

/-- No identifier stands twice, and none that was not given out. -/
structure Lawful (tables : MemoryTables) (w : World) : Prop where
  distinct : (w.tables .tokens).entries.Distinct
  born : ∀ key held, w.find? .tokens key = some held → 1 ≤ births tables w.log key

theorem lawful_opening (hdistinct : (tables .tokens).entries.Distinct) :
    Lawful tables ⟨tables, []⟩ where
  distinct := hdistinct
  born := by
    intro key held hfind
    have hopened : (tables .tokens).find? key = some held := hfind
    simp [births, hopened]

theorem Lawful.seen (hlaw : Lawful tables w) (hfind : w.find? .tokens key = some read) :
    Seen tables w key read where
  born := hlaw.born key read hfind
  onward := by
    rw [hfind]
    exact .same _

/-- What may be asked of the tokens: that one be entered, or that one which was seen unused be
marked or removed at its revision. -/
inductive Warranted (tables : MemoryTables) (w : World) : Effect → Prop where
  | aside {e : Effect} (he : e.writesTo .tokens = false) : Warranted tables w e
  | entry (key : String) (token : BootstrapToken) :
    Warranted tables w (.table .tokens (.create key token))
  | mark {key : String} {read : Versioned BootstrapToken} {token : BootstrapToken}
    (hseen : Seen tables w key read) (hunused : read.value.isUsed = false) (hused : token.isUsed) :
    Warranted tables w (.table .tokens (.update key token read.revision))
  | removal {key : String} {read : Versioned BootstrapToken} (hseen : Seen tables w key read)
    (hunused : read.value.isUsed = false) :
    Warranted tables w (.table .tokens (.delete key read.revision))

variable {stores : Stores} {chance : Chance} {task : Nat} {e : Effect}

/-- The law after an effect that may have changed what stands under keys that were given out. -/
theorem Lawful.after (hlaw : Lawful tables w)
    (hfind : ∀ key, 1 ≤ births tables w.log key →
      Onward (w.find? .tokens key) ((w.after stores chance task e).find? .tokens key))
    (hborn : ∀ key held, (w.after stores chance task e).find? .tokens key = some held →
      1 ≤ births tables (w.after stores chance task e).log key) :
    Lawful tables (w.after stores chance task e) ∧ Later tables w (w.after stores chance task e) :=
  ⟨⟨World.distinct_after hlaw.distinct stores chance task e, hborn⟩,
    fun key hkey => ⟨hkey.trans (births_le tables w.log _ key), hfind key hkey⟩⟩

theorem Lawful.after_same (hlaw : Lawful tables w)
    (hsame : (w.after stores chance task e).tables .tokens = w.tables .tokens) :
    Lawful tables (w.after stores chance task e) ∧
      Later tables w (w.after stores chance task e) := by
  have hfind (key : String) :
      (w.after stores chance task e).find? .tokens key = w.find? .tokens key := by
    rw [World.find?, hsame, World.find?]
  apply hlaw.after
  · intro key _
    rw [hfind]
    exact .same _
  · intro key held hheld
    rw [hfind] at hheld
    exact (hlaw.born key held hheld).trans (births_le tables w.log _ key)

/-- The law after what stood under one key has gone onward, and nothing else has changed. -/
theorem Lawful.after_change (hlaw : Lawful tables w) {held? : Option (Versioned BootstrapToken)}
    (hfind : ∀ other, (w.after stores chance task e).find? .tokens other =
      if other = key then held? else w.find? .tokens other)
    (hborn : 1 ≤ births tables w.log key) (honward : Onward (w.find? .tokens key) held?) :
    Lawful tables (w.after stores chance task e) ∧
      Later tables w (w.after stores chance task e) := by
  apply hlaw.after
  · intro other _
    rw [hfind]
    split
    · next hother => rwa [hother]
    · exact .same _
  · intro other held hheld
    refine Nat.le_trans ?_ (births_le tables w.log _ other)
    by_cases hother : other = key
    · rwa [hother]
    · rw [hfind, if_neg hother] at hheld
      exact hlaw.born other held hheld

/-- A token that is entered under an identifier which was given out before breaks the rule that none
is given out twice. -/
theorem Lawful.after_entry (hlaw : Lawful tables w) {token : BootstrapToken}
    (hunrepeated : Unrepeated tables
      (w.after stores chance task (.table .tokens (.create key token))).log) :
    Lawful tables (w.after stores chance task (.table .tokens (.create key token))) ∧
      Later tables w (w.after stores chance task (.table .tokens (.create key token))) := by
  rcases w.create_cases stores chance task .tokens key token with
    ⟨error, -, -, htables⟩ | ⟨-, hreply, hfind⟩
  · exact hlaw.after_same (by rw [htables])
  · have hbirths : births tables
        (w.after stores chance task (.table .tokens (.create key token))).log key =
          births tables w.log key + 1 := by
      change births tables (w.log ++ [⟨task, _, w.reply stores chance _⟩]) key = _
      rw [births_append, hreply]
      simp [Event.enters, Event.writesAt, Event.isWrite, TableCall.key]
    have hunborn : births tables w.log key = 0 := by
      have hkey := hunrepeated key
      omega
    apply hlaw.after
    · intro other hother
      rw [hfind, if_neg]
      · exact .same _
      · rintro rfl
        omega
    · intro other held hheld
      by_cases hother : other = key
      · rw [hother]
        omega
      · rw [hfind, if_neg hother] at hheld
        exact (hlaw.born other held hheld).trans (births_le tables w.log _ other)

/-- Tokens age with every effect that is warranted. -/
theorem Warranted.step (hwarranted : Warranted tables w e) (hlaw : Lawful tables w)
    (hunrepeated : Unrepeated tables (w.after stores chance task e).log) :
    Lawful tables (w.after stores chance task e) ∧
      Later tables w (w.after stores chance task e) := by
  cases hwarranted with
  | aside he => exact hlaw.after_same (World.tables_after_of_not_writesTo w stores chance task he)
  | entry key token => exact hlaw.after_entry hunrepeated
  | @mark key read token hseen hunused hused =>
      rcases w.update_cases stores chance task .tokens key token read.revision with
        ⟨error, -, -, htables⟩ | ⟨held, hheld, hrevision, -, hfind⟩
      · exact hlaw.after_same (by rw [htables])
      · obtain rfl := hseen.eq_of_revision hheld hrevision
        apply hlaw.after_change hfind hseen.born
        rw [hheld]
        exact .spent hunused hused
  | @removal key read hseen hunused =>
      rcases w.delete_cases stores chance task .tokens key read.revision with
        ⟨error, -, -, htables⟩ | ⟨held, hheld, hrevision, -, hfind⟩
      · exact hlaw.after_same (by rw [htables])
      · obtain rfl := hseen.eq_of_revision hheld hrevision
        apply hlaw.after_change hfind hseen.born
        rw [hheld]
        exact .pruned hunused

end World

end CertAuthority.Tokens
