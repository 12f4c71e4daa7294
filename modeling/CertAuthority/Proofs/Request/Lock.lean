import CertAuthority.Request.Lock
import Mathlib.Data.List.Basic

/-!
# Locks and those who refer to them

Two things hold together what a table of locks says and what its callers do.  Whoever refers to a
lock refers to the one that the table has for the request, and the table has no lock that nobody
came for.  And a lock in the table counts its references, and knows whether somebody holds it.
-/

namespace CertAuthority

/-- Whether a caller has referred to a lock and has yet to tidy the table. -/
def LockStage.isUnderway : LockStage → Bool
  | .waiting _ | .inside _ | .leaving _ | .tidying => true
  | .arrived | .gone => false

theorem LockStage.isUnderway_of_lock? {stage : LockStage} {n : Nat}
    (hn : stage.lock? = some n) : stage.isUnderway := by
  cases stage with
  | waiting lock => rfl
  | inside lock => rfl
  | leaving lock => rfl
  | arrived => cases hn
  | tidying => cases hn
  | gone => cases hn

namespace LockTable

variable {t later : LockTable} {i n : Nat} {c : LockCaller} {stage : LockStage} {id : RequestId}

/-! ## Parts of a step -/

/-- The table with another stage of one caller is the same but for this one. -/
theorem exists_callers_setStage (hc : t.callers[i]? = some c) (stage : LockStage) :
    ∃ before after, t.callers = before ++ c :: after ∧
      (t.setStage i stage).callers = before ++ { c with stage } :: after := by
  obtain ⟨hbound, rfl⟩ := List.getElem?_eq_some_iff.mp hc
  refine ⟨t.callers.take i, t.callers.drop (i + 1), ?_, ?_⟩
  · rw [List.getElem_cons_drop, List.take_append_drop]
  · rw [setStage, List.modify_eq_take_cons_drop hbound]

theorem mem_of_mem_setStage (hc : t.callers[i]? = some c) {other : LockCaller}
    (hother : other ∈ (t.setStage i stage).callers) :
    other ∈ t.callers ∨ other = { c with stage } := by
  obtain ⟨before, after, hcallers, hlater⟩ := exists_callers_setStage hc stage
  rw [hlater] at hother
  rw [hcallers]
  simp only [List.mem_append, List.mem_cons] at hother ⊢
  tauto

theorem mem_setStage_self (hc : t.callers[i]? = some c) (stage : LockStage) :
    { c with stage } ∈ (t.setStage i stage).callers := by
  obtain ⟨before, after, -, hlater⟩ := exists_callers_setStage hc stage
  rw [hlater]
  exact List.mem_append_right _ List.mem_cons_self

theorem mem_setStage_of_ne (hc : t.callers[i]? = some c) {other : LockCaller} (stage : LockStage)
    (hother : other ∈ t.callers) (hne : other ≠ c) : other ∈ (t.setStage i stage).callers := by
  obtain ⟨before, after, hcallers, hlater⟩ := exists_callers_setStage hc stage
  rw [hcallers] at hother
  rw [hlater]
  simp only [List.mem_append, List.mem_cons] at hother ⊢
  tauto

theorem countP_setStage (hc : t.callers[i]? = some c) (stage : LockStage) (p : LockCaller → Bool) :
    (t.setStage i stage).callers.countP p + (if p c then 1 else 0) =
      t.callers.countP p + if p { c with stage } then 1 else 0 := by
  obtain ⟨before, after, hcallers, hlater⟩ := exists_callers_setStage hc stage
  rw [hcallers, hlater, List.countP_append, List.countP_append, List.countP_cons, List.countP_cons]
  omega

/-! ## Entries of the table -/

theorem lookup_cons_ite (entries : List (RequestId × Nat)) (id other : RequestId) (n : Nat) :
    List.lookup other ((id, n) :: entries) =
      if other = id then some n else List.lookup other entries := by
  rw [List.lookup_cons]
  by_cases heq : other = id
  · simp [heq]
  · rw [beq_eq_false_iff_ne.mpr heq, if_neg heq]

theorem lookup_filter_ne (entries : List (RequestId × Nat)) (id other : RequestId) :
    List.lookup other (entries.filter (·.1 ≠ id)) =
      if other = id then none else List.lookup other entries := by
  induction entries with
  | nil => simp
  | cons entry entries ih =>
      obtain ⟨first, n⟩ := entry
      by_cases hfirst : first = id
      · rw [List.filter_cons_of_neg (by simp [hfirst]), ih, lookup_cons_ite, hfirst]
        split <;> rfl
      · rw [List.filter_cons_of_pos (by simp [hfirst]), lookup_cons_ite, ih, lookup_cons_ite]
        by_cases heq : other = id
        · rw [if_pos heq, if_pos heq, if_neg (heq ▸ Ne.symm hfirst)]
        · rw [if_neg heq, if_neg heq]

/-! ## Which lock is whose -/

/-- The callers for a request refer to the lock that the table has for it, and the table has no lock
that nobody came for. -/
structure Placed (t : LockTable) : Prop where
  made : ∀ id n, t.lock? id = some n → n < t.locks.length
  own : ∀ id other n, t.lock? id = some n → t.lock? other = some n → id = other
  listed : ∀ c ∈ t.callers, ∀ n, c.stage.lock? = some n → t.lock? c.requestId = some n
  needed : ∀ id n, t.lock? id = some n →
    ∃ c ∈ t.callers, c.requestId = id ∧ c.stage.isUnderway

theorem Placed.listed_of_stage (hplaced : t.Placed) (hc : c ∈ t.callers) (hstage : c.stage = stage)
    (hn : stage.lock? = some n) : t.lock? c.requestId = some n :=
  hplaced.listed c hc n (hstage ▸ hn)

/-- The locks of other requests are still needed when a caller goes on. -/
theorem Placed.needed_of_ne (hplaced : t.Placed) (hc : t.callers[i]? = some c) (stage : LockStage)
    (hn : t.lock? id = some n) (hid : id ≠ c.requestId) :
    ∃ other ∈ (t.setStage i stage).callers, other.requestId = id ∧ other.stage.isUnderway := by
  obtain ⟨other, hother, rfl, hunderway⟩ := hplaced.needed id n hn
  have hne : other ≠ c := fun heq => hid (congrArg LockCaller.requestId heq)
  exact ⟨other, mem_setStage_of_ne hc stage hother hne, rfl, hunderway⟩

/-- A lock is only changed. -/
theorem Placed.changeLock (hplaced : t.Placed) (n : Nat) (change : SharedLock → SharedLock) :
    (t.changeLock n change).Placed where
  made := by
    intro id m hm
    rw [LockTable.changeLock, List.length_modify]
    exact hplaced.made id m hm
  own := hplaced.own
  listed := hplaced.listed
  needed := hplaced.needed

/-- A caller goes on, and no lock is made or removed. -/
theorem Placed.setStage (hplaced : t.Placed) (hc : t.callers[i]? = some c)
    (hlisted : ∀ n, stage.lock? = some n → t.lock? c.requestId = some n)
    (hneeded : ∀ n, t.lock? c.requestId = some n → ∃ other ∈ (t.setStage i stage).callers,
      other.requestId = c.requestId ∧ other.stage.isUnderway) :
    (t.setStage i stage).Placed where
  made := hplaced.made
  own := hplaced.own
  listed := by
    intro other hother n hn
    rcases mem_of_mem_setStage hc hother with hbefore | rfl
    · exact hplaced.listed other hbefore n hn
    · exact hlisted n hn
  needed := by
    intro id n hn
    by_cases hid : id = c.requestId
    · subst hid
      exact hneeded n hn
    · exact hplaced.needed_of_ne hc stage hn hid

/-- A caller goes on and is still underway. -/
theorem Placed.proceed (hplaced : t.Placed) (hc : t.callers[i]? = some c)
    (hlisted : ∀ n, stage.lock? = some n → t.lock? c.requestId = some n)
    (hunderway : stage.isUnderway) : (t.setStage i stage).Placed :=
  hplaced.setStage hc hlisted fun _ _ => ⟨_, mem_setStage_self hc stage, rfl, hunderway⟩

/-! ## How often a lock is referred to and held -/

/-- How many callers refer to a lock. -/
def countReferring (t : LockTable) (n : Nat) : Nat :=
  t.callers.countP (·.stage.lock? = some n)

/-- How many callers hold a lock. -/
def countHolding (t : LockTable) (n : Nat) : Nat :=
  t.callers.countP (·.stage = .inside n)

/-- The locks in the table count their references, and all locks know whether they are held. -/
structure Counted (t : LockTable) : Prop where
  references : ∀ id n l, t.lock? id = some n → t.locks[n]? = some l →
    l.references = t.countReferring n + 1
  held : ∀ n l, t.locks[n]? = some l → t.countHolding n = l.isHeld.toNat

theorem countReferring_setStage (hc : t.callers[i]? = some c) (stage : LockStage) (n : Nat) :
    (t.setStage i stage).countReferring n + (if c.stage.lock? = some n then 1 else 0) =
      t.countReferring n + if stage.lock? = some n then 1 else 0 := by
  simpa [countReferring] using countP_setStage hc stage (·.stage.lock? = some n)

theorem countHolding_setStage (hc : t.callers[i]? = some c) (stage : LockStage) (n : Nat) :
    (t.setStage i stage).countHolding n + (if c.stage = .inside n then 1 else 0) =
      t.countHolding n + if stage = .inside n then 1 else 0 := by
  simpa [countHolding] using countP_setStage hc stage (·.stage = .inside n)

/-- A caller who refers to no lock before or after makes no difference to any. -/
theorem countReferring_of_idle (hc : t.callers[i]? = some c) (hbefore : c.stage.lock? = none)
    (hafter : stage.lock? = none) (n : Nat) :
    (t.setStage i stage).countReferring n = t.countReferring n := by
  have hcount := countReferring_setStage hc stage n
  rwa [hbefore, hafter] at hcount

theorem countHolding_of_outside (hc : t.callers[i]? = some c) (hbefore : c.stage.isInside = false)
    (hafter : stage.isInside = false) (n : Nat) :
    (t.setStage i stage).countHolding n = t.countHolding n := by
  have hcount := countHolding_setStage hc stage n
  have hne {s : LockStage} (hs : s.isInside = false) : s ≠ .inside n := by
    rintro rfl
    cases hs
  rwa [if_neg (hne hbefore), if_neg (hne hafter)] at hcount

theorem countHolding_le_countReferring (t : LockTable) (n : Nat) :
    t.countHolding n ≤ t.countReferring n := by
  refine List.countP_mono_left fun c _ hinside => ?_
  simp_all [LockStage.lock?]

/-- Nobody refers to a lock that is yet to be made. -/
theorem Placed.countReferring_length (hplaced : t.Placed) :
    t.countReferring t.locks.length = 0 := by
  refine List.countP_eq_zero.mpr fun c hc hreferring => ?_
  have hlisted := hplaced.listed c hc _ (of_decide_eq_true hreferring)
  exact absurd (hplaced.made _ _ hlisted) (Nat.lt_irrefl _)

theorem exists_of_changeLock {m : Nat} {l : SharedLock} {change : SharedLock → SharedLock}
    (hl : (t.changeLock n change).locks[m]? = some l) :
    ∃ old, t.locks[m]? = some old ∧ l = if m = n then change old else old := by
  rw [changeLock, List.getElem?_modify, Option.map_eq_map, Option.map_eq_some_iff] at hl
  obtain ⟨old, hold, rfl⟩ := hl
  exact ⟨old, hold, by simp only [eq_comm]⟩

/-- A lock is changed as the one caller who refers to it, before or after that, goes on. -/
theorem Counted.update {l : SharedLock} {change : SharedLock → SharedLock}
    (hcounted : t.Counted) (hc : t.callers[i]? = some c) (hl : t.locks[n]? = some l)
    (hbefore : ∀ m, c.stage.lock? = some m → m = n) (hafter : ∀ m, stage.lock? = some m → m = n)
    (hreferences : (change l).references + (if c.stage.lock? = some n then 1 else 0) =
      l.references + if stage.lock? = some n then 1 else 0)
    (hheld : (change l).isHeld.toNat + (if c.stage = .inside n then 1 else 0) =
      l.isHeld.toNat + if stage = .inside n then 1 else 0) :
    ((t.changeLock n change).setStage i stage).Counted where
  references := by
    intro id m later hm hlater
    obtain ⟨old, hold, rfl⟩ := exists_of_changeLock hlater
    have hcount := hcounted.references id m old hm hold
    have hreferring : ((t.changeLock n change).setStage i stage).countReferring m +
        (if c.stage.lock? = some m then 1 else 0) =
        t.countReferring m + if stage.lock? = some m then 1 else 0 :=
      countReferring_setStage hc stage m
    by_cases hmn : m = n
    · subst hmn
      cases hl.symm.trans hold
      rw [if_pos rfl]
      omega
    · rw [if_neg fun heq => hmn (hbefore m heq), if_neg fun heq => hmn (hafter m heq)] at hreferring
      rw [if_neg hmn]
      omega
  held := by
    intro m later hlater
    obtain ⟨old, hold, rfl⟩ := exists_of_changeLock hlater
    have hcount := hcounted.held m old hold
    have hholding : ((t.changeLock n change).setStage i stage).countHolding m +
        (if c.stage = .inside m then 1 else 0) =
        t.countHolding m + if stage = .inside m then 1 else 0 :=
      countHolding_setStage hc stage m
    by_cases hmn : m = n
    · subst hmn
      cases hl.symm.trans hold
      rw [if_pos rfl]
      omega
    · have hinside : c.stage ≠ .inside m := fun heq => hmn (hbefore m (by rw [heq]; rfl))
      have hlater : stage ≠ .inside m := fun heq => hmn (hafter m (by rw [heq]; rfl))
      rw [if_neg hinside, if_neg hlater] at hholding
      rw [if_neg hmn]
      omega

end LockTable

end CertAuthority
