import CertAuthority.Proofs.Store.Site

/-!
# What a revision tells

A key has a first revision when it is made, and the next one with each change; once removed it has
none, and if it is made again it begins anew.  A write that names a revision is accepted only
where the entry has that revision.  So whoever writes at the revision that it has read has missed
no write since, unless the key was removed in between, or was changed as many times as there are
revisions: the new life of a key repeats the revisions of the old one, and a writer cannot tell
one from the other.
-/

namespace CertAuthority

open Json (Codec)

namespace Versioned

/-- What an accepted call has done under a key. -/
inductive Write where
  | made
  | changed
  | removed
  deriving Repr, DecidableEq

/-- How writes lead from one revision under a key to another. -/
inductive Life : Option Nat → List Write → Option Nat → Prop where
  | still (revision : Option Nat) : Life revision [] revision
  | made {writes : List Write} {last : Option Nat} :
    Life (some firstRevision) writes last → Life none (.made :: writes) last
  | changed {revision : Nat} {writes : List Write} {last : Option Nat} :
    Life (some (nextRevision revision)) writes last →
      Life (some revision) (.changed :: writes) last
  | removed {revision : Nat} {writes : List Write} {last : Option Nat} :
    Life none writes last → Life (some revision) (.removed :: writes) last

namespace Life

variable {first middle last : Option Nat} {writes more : List Write} {revision : Nat}

theorem trans (hfirst : Life first writes middle) (hsecond : Life middle more last) :
    Life first (writes ++ more) last := by
  induction hfirst with
  | still => exact hsecond
  | made _ ih => exact .made (ih hsecond)
  | changed _ ih => exact .changed (ih hsecond)
  | removed _ ih => exact .removed (ih hsecond)

/-- Where nothing is removed, the revisions are counted on. -/
theorem eq_of_not_removed (hlife : Life (some revision) writes last) (hkept : .removed ∉ writes) :
    last = some (if writes.length = 0 then revision
      else (revision + writes.length) % Nat.pow 2 64) := by
  generalize hfirst : some revision = first at hlife
  induction hlife generalizing revision with
  | still => simp [hfirst]
  | made => cases hfirst
  | @changed current rest last hrest ih =>
      cases hfirst
      rw [ih (fun hmem => hkept (List.mem_cons_of_mem _ hmem)) rfl]
      simp only [List.length_cons, Nat.add_one_ne_zero, if_false, nextRevision]
      split
      · next hzero => rw [hzero]
      · rw [Nat.mod_add_mod, Nat.add_assoc, Nat.add_comm 1]
  | removed => exact absurd List.mem_cons_self hkept

/-- Without a removal, revisions rise with each write as long as they are not used up. -/
theorem rising (hlife : Life (some revision) writes last) (hkept : .removed ∉ writes)
    (hbound : revision + writes.length < Nat.pow 2 64) :
    last = some (revision + writes.length) := by
  rw [hlife.eq_of_not_removed hkept, Nat.mod_eq_of_lt hbound]
  split
  · next hzero => rw [hzero, Nat.add_zero]
  · rfl

/-- A revision comes again only after a removal, or when all of them are used up. -/
theorem recurs (hlife : Life (some revision) writes (some revision)) :
    writes = [] ∨ .removed ∈ writes ∨ Nat.pow 2 64 ≤ writes.length := by
  by_cases hkept : .removed ∈ writes
  · exact .inr (.inl hkept)
  · have hsame := Option.some.inj (hlife.eq_of_not_removed hkept)
    by_cases hnone : writes.length = 0
    · exact .inl (List.length_eq_zero_iff.mp hnone)
    · rw [if_neg hnone] at hsame
      rw [show Nat.pow 2 64 = 18446744073709551616 from rfl] at hsame ⊢
      exact .inr (.inr (by omega))

/-- What is made has the first revision, whatever was there before. -/
theorem reborn (hlife : Life first (writes ++ [.made]) last) : last = some firstRevision := by
  induction writes generalizing first with
  | nil =>
      cases hlife with
      | made hrest =>
          cases hrest
          rfl
  | cons write rest ih =>
      cases hlife with
      | made hrest => exact ih hrest
      | changed hrest => exact ih hrest
      | removed hrest => exact ih hrest

end Life

end Versioned

namespace TableCall

open Versioned (Write Life)

variable {α : Type} {call : TableCall α} {before after : Entries α} {answer : call.Payload}

/-- What a call does under a key if it is accepted. -/
def write? (key : String) : TableCall α → Option Write
  | .create written _ => if written = key then some .made else none
  | .update written _ _ => if written = key then some .changed else none
  | .delete written _ => if written = key then some .removed else none
  | .get _ => none
  | .list => none

/-- The revision that a call names. -/
def expected? : TableCall α → Option Nat
  | .update _ _ revision => some revision
  | .delete _ revision => some revision
  | _ => none

/-- A call that names a revision is accepted where that revision is. -/
theorem Accepts.expected {revision : Nat} (haccepts : call.Accepts before answer after)
    (hexpected : call.expected? = some revision) :
    ∃ entry, before.find? call.key = some entry ∧ entry.revision = revision := by
  cases haccepts with
  | get => cases hexpected
  | list => cases hexpected
  | create => cases hexpected
  | update value hheld => exact ⟨_, hheld, Option.some.inj hexpected⟩
  | delete hheld => exact ⟨_, hheld, Option.some.inj hexpected⟩

/-- A call that names a revision is refused only where that revision is not. -/
theorem revision_ne_of_change {e : CaError} {revision : Nat} {entry : Versioned α}
    (hchange : call.change before = .error e) (hexpected : call.expected? = some revision)
    (hentry : before.find? call.key = some entry) : entry.revision ≠ revision := by
  rintro rfl
  cases call with
  | get key => cases hexpected
  | list => cases hexpected
  | create key value => cases hexpected
  | update key value expected =>
      cases hexpected
      cases hchange.symm.trans (change_eq_ok_iff.mpr (.update value hentry))
  | delete key expected =>
      cases hexpected
      cases hchange.symm.trans (change_eq_ok_iff.mpr (.delete hentry))

/-- What an accepted call does to the revision under a key. -/
theorem Accepts.life (haccepts : call.Accepts before answer after) (key : String) :
    Life ((before.find? key).map (·.revision)) (call.write? key).toList
      ((after.find? key).map (·.revision)) := by
  cases haccepts with
  | get => exact .still _
  | list => exact .still _
  | @create written value _ hnew =>
      rw [Entries.find?_insert]
      by_cases hkey : written = key
      · subst hkey
        simp only [write?, if_true, hnew]
        exact .made (.still _)
      · simp only [write?, hkey, if_false, Ne.symm hkey]
        exact .still _
  | @update written value _ held hheld =>
      rw [Entries.find?_replace _ hheld]
      by_cases hkey : written = key
      · subst hkey
        simp only [write?, if_true, hheld]
        exact .changed (.still _)
      · simp only [write?, hkey, if_false, Ne.symm hkey]
        exact .still _
  | @delete written _ held hheld =>
      rw [Entries.find?_erase]
      by_cases hkey : written = key
      · subst hkey
        simp only [write?, if_true, hheld]
        exact .removed (.still _)
      · simp only [write?, hkey, if_false, Ne.symm hkey]
        exact .still _

end TableCall

namespace Table

open Versioned (Write Life firstRevision)

variable {α : Type} [Codec α]

namespace Site

/-- The writes under a key that are accepted on the way. -/
def writes (key : String) (s : Site α) : List (Ask α) → List Write
  | [] => []
  | a :: rest =>
    match s.reply a with
    | .ok _ => (a.call.write? key).toList ++ writes key (s.act a) rest
    | .error _ => writes key (s.act a) rest

variable {s : Site α} {entries : Entries α}

/-- Who asks for a key is told what whoever lists the table finds under it. -/
theorem reply_get (s : Site α) (n : Nat) (key : String) :
    s.reply ⟨n, .get key⟩ = s.content.map (·.find? key) := by
  obtain ⟨table, d⟩ := s
  cases table <;> rfl

theorem reply_list (s : Site α) (n : Nat) : s.reply ⟨n, .list⟩ = s.content := by
  obtain ⟨table, d⟩ := s
  cases table <;> rfl

/-- What is read under a key follows from what was read before and the writes in between. -/
theorem life_after {course : List (Ask α)} (hcontent : (s.after course).content = .ok entries)
    (key : String) :
    ∃ before, s.content = .ok before ∧
      Life ((before.find? key).map (·.revision)) (s.writes key course)
        ((entries.find? key).map (·.revision)) := by
  induction course generalizing s with
  | nil => exact ⟨entries, hcontent, .still _⟩
  | cons a rest ih =>
      obtain ⟨middle, hmiddle, hlater⟩ := ih hcontent
      rcases s.act_cases a with
        ⟨e, hfailed, -, hkept⟩ | ⟨told, answer, before, left, hdone, haccepts, hbefore, hleft⟩
      · refine ⟨middle, hkept middle hmiddle, ?_⟩
        rwa [writes, hfailed]
      · refine ⟨before, hbefore, ?_⟩
        rw [hleft middle hmiddle key] at hlater
        rw [writes, hdone]
        exact (haccepts.life key).trans hlater

/-- That no key stands twice in a table, which is so by itself of what is read of a file. -/
def IsDistinct (s : Site α) : Prop :=
  match s.table with
  | .memory m => m.entries.Distinct
  | .file _ => True

theorem isDistinct_act (hdistinct : s.IsDistinct) (a : Ask α) : (s.act a).IsDistinct := by
  obtain ⟨table, d⟩ := s
  cases table with
  | memory m => exact MemoryTable.distinct_step hdistinct a.call
  | file t => trivial

theorem isDistinct_after (hdistinct : s.IsDistinct) (asks : List (Ask α)) :
    (s.after asks).IsDistinct := by
  induction asks generalizing s with
  | nil => exact hdistinct
  | cons a rest ih => exact ih (isDistinct_act hdistinct a)

omit [Codec α] in
theorem isDistinct_start (file : Option FileTable) (d : Disk) :
    (start file d : Site α).IsDistinct := by
  cases file with
  | none => exact List.nodup_nil
  | some t => trivial

theorem IsDistinct.distinct (hdistinct : s.IsDistinct) (hcontent : s.content = .ok entries) :
    entries.Distinct := by
  obtain ⟨table, d⟩ := s
  cases table with
  | memory m =>
      cases hcontent
      exact hdistinct
  | file t => exact Entries.distinct_of_ascending (FileTable.isOrderly_of_load hcontent).ascending

end Site

/-- What is certain of the revisions under a key while a table is asked. -/
structure Lineage (s : Site α) (key : String) (course : List (Ask α)) : Prop where
  /-- Whoever lists the table is told of the key what whoever asks for it is told. -/
  listed : ∀ n (entries : Entries α), s.reply ⟨n, .list⟩ = .ok entries → ∀ entry,
    (key, entry) ∈ entries ↔ s.reply ⟨n, .get key⟩ = .ok (some entry)
  /-- The revision under the key follows from the one before and the writes in between. -/
  followed : ∀ n held left, s.reply ⟨n, .get key⟩ = .ok held →
    (s.after course).reply ⟨n, .get key⟩ = .ok left →
      Life (held.map (·.revision)) (s.writes key course) (left.map (·.revision))
  /-- A call that names a revision is accepted only where the entry has it. -/
  guarded : ∀ a told revision, (s.after course).reply a = .ok told →
    a.call.expected? = some revision → a.call.key = key →
      ∃ entry, (s.after course).reply ⟨a.nonce, .get key⟩ = .ok (some entry) ∧
        entry.revision = revision
  /-- It is refused only where the entry does not have it, with a conflict; a table in a file may
  also be refused by its storage. -/
  refused : ∀ a e revision, (s.after course).reply a = .error e →
    a.call.expected? = some revision → a.call.key = key →
      (∃ t message, (s.after course).table = .file t ∧ e = .storage message) ∨
        e = .conflict key ∧ ∀ n entry,
          (s.after course).reply ⟨n, .get key⟩ = .ok (some entry) → entry.revision ≠ revision
  /-- Whoever writes at the revision that it has read has missed no write, or a removal, or as many
  writes as there are revisions. -/
  unseen : ∀ n entry a told, s.reply ⟨n, .get key⟩ = .ok (some entry) →
    (s.after course).reply a = .ok told → a.call.expected? = some entry.revision →
      a.call.key = key →
        s.writes key course = [] ∨ .removed ∈ s.writes key course ∨
          Nat.pow 2 64 ≤ (s.writes key course).length
  /-- Without a removal in between, the revision rises with each write. -/
  rising : ∀ n entry left, s.reply ⟨n, .get key⟩ = .ok (some entry) →
    (s.after course).reply ⟨n, .get key⟩ = .ok left → .removed ∉ s.writes key course →
      entry.revision + (s.writes key course).length < Nat.pow 2 64 →
        left.map (·.revision) = some (entry.revision + (s.writes key course).length)
  /-- A key that was just made has the first revision, whatever it had before. -/
  reborn : ∀ n left earlier, s.writes key course = earlier ++ [.made] →
    (s.after course).reply ⟨n, .get key⟩ = .ok left →
      left.map (·.revision) = some firstRevision

variable {s : Site α} {key : String} {course : List (Ask α)} {n : Nat}

theorem exists_of_get {held : Option (Versioned α)} (hget : s.reply ⟨n, .get key⟩ = .ok held) :
    ∃ entries, s.content = .ok entries ∧ entries.find? key = held := by
  rw [Site.reply_get] at hget
  cases hcontent : s.content with
  | error e =>
      rw [hcontent] at hget
      cases hget
  | ok entries =>
      rw [hcontent] at hget
      exact ⟨entries, rfl, Except.ok.inj hget⟩

/-- What is told of a key follows from what was told before and the writes in between. -/
theorem life_of_get {held left : Option (Versioned α)}
    (hheld : s.reply ⟨n, .get key⟩ = .ok held)
    (hleft : (s.after course).reply ⟨n, .get key⟩ = .ok left) :
    Life (held.map (·.revision)) (s.writes key course) (left.map (·.revision)) := by
  obtain ⟨before, hbefore, rfl⟩ := exists_of_get hheld
  obtain ⟨after, hafter, rfl⟩ := exists_of_get hleft
  obtain ⟨found, hfound, hlife⟩ := Site.life_after hafter key
  cases hbefore.symm.trans hfound
  exact hlife

/-- A call that names a revision is accepted only where the entry has it. -/
theorem exists_of_expected {a : Ask α} {told : a.call.Payload} {revision : Nat}
    (hdone : s.reply a = .ok told) (hexpected : a.call.expected? = some revision) (n : Nat) :
    ∃ entry, s.reply ⟨n, .get a.call.key⟩ = .ok (some entry) ∧ entry.revision = revision := by
  rcases s.act_cases a with ⟨e, hfailed, -⟩ | ⟨_, _, before, _, -, haccepts, hbefore, -⟩
  · cases hfailed.symm.trans hdone
  · obtain ⟨entry, hentry, hrevision⟩ := haccepts.expected hexpected
    refine ⟨entry, ?_, hrevision⟩
    rw [Site.reply_get, hbefore]
    exact congrArg Except.ok hentry

/-- A call that names a revision is refused by the storage, or the entry does not have it. -/
theorem conflict_of_refused {a : Ask α} {e : CaError} {revision : Nat}
    (hfailed : s.reply a = .error e) (hexpected : a.call.expected? = some revision) :
    (∃ t message, s.table = .file t ∧ e = .storage message) ∨
      e = .conflict a.call.key ∧ ∀ n entry,
        s.reply ⟨n, .get a.call.key⟩ = .ok (some entry) → entry.revision ≠ revision := by
  rcases s.act_cases a with ⟨_, herror, hwhy, -⟩ | ⟨told, _, _, _, hdone, -⟩
  · cases herror.symm.trans hfailed
    refine hwhy.imp_right fun ⟨before, hbefore, hchange⟩ => ?_
    refine ⟨TableCall.eq_conflict_of_change hchange, fun n entry hget => ?_⟩
    obtain ⟨entries, hentries, hfound⟩ := exists_of_get hget
    cases hbefore.symm.trans hentries
    exact TableCall.revision_ne_of_change hchange hexpected hfound
  · cases hdone.symm.trans hfailed

/-- Whatever a table is asked from the beginning, in memory or in a file, on any disk: revisions
tell which writes were missed within one life of a key, and nothing of the lives before. -/
theorem lineage (file : Option FileTable) (d : Disk) (past course : List (Ask α)) (key : String) :
    Lineage ((Site.start file d).after past) key course where
  listed n entries hlist entry := by
    rw [Site.reply_list] at hlist
    rw [Site.reply_get, hlist]
    have hdistinct := (Site.isDistinct_after (Site.isDistinct_start file d) past).distinct hlist
    constructor
    · intro hmem
      exact congrArg Except.ok (Entries.find?_eq_some_of_mem hdistinct hmem)
    · intro hget
      exact Entries.mem_of_find?_eq_some (Except.ok.inj hget)
  followed n held left hheld hleft := life_of_get hheld hleft
  guarded a told revision hdone hexpected hkey := by
    rw [← hkey]
    exact exists_of_expected hdone hexpected a.nonce
  refused a e revision hfailed hexpected hkey := by
    subst hkey
    exact conflict_of_refused hfailed hexpected
  unseen n entry a told hentry hdone hexpected hkey := by
    obtain ⟨left, hleft, hrevision⟩ := exists_of_expected hdone hexpected n
    rw [hkey] at hleft
    have hlife := life_of_get hentry hleft
    rw [Option.map_some, Option.map_some, hrevision] at hlife
    exact hlife.recurs
  rising n entry left hentry hleft hkept hbound := (life_of_get hentry hleft).rising hkept hbound
  reborn n left earlier hwrites hleft := by
    obtain ⟨after, hafter, rfl⟩ := exists_of_get hleft
    obtain ⟨before, -, hlife⟩ := Site.life_after hafter key
    rw [hwrites] at hlife
    exact hlife.reborn

end Table

end CertAuthority
