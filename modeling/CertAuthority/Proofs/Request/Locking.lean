import CertAuthority.Proofs.Request.Lock

/-!
# The steps of those who take a lock

A caller has seven ways to go on.  None of them parts a caller from the lock that the table has for
its request: a lock is made only where there is none, and removed only where nobody refers to it.
Whoever comes late to tidy the table may find a lock there that was made for others, and removes it
if it is unused by then; whoever finds it used leaves it to one who still refers to it.
-/

namespace CertAuthority.LockTable

variable {t later : LockTable} {i n : Nat} {c : LockCaller} {stage : LockStage} {id : RequestId}

/-! ## The ways to go on -/

/-- The table in which a caller refers to a new lock of its request. -/
def making (t : LockTable) (i : Nat) (id : RequestId) : LockTable :=
  LockTable.setStage { t with
    locks := t.locks ++ [SharedLock.fresh]
    entries := (id, t.locks.length) :: t.entries } i (.waiting t.locks.length)

/-- The table from which a caller has removed the lock of its request. -/
def removing (t : LockTable) (i : Nat) (id : RequestId) (n : Nat) : LockTable :=
  LockTable.setStage { t.dropReference n with entries := t.entries.filter (·.1 ≠ id) } i .gone

/-- What the next step of a caller makes of the table. -/
inductive Advances (t : LockTable) (i : Nat) (c : LockCaller) : LockTable → Prop where
  /-- It refers to the lock that the table has for its request. -/
  | found {n : Nat} (hstage : c.stage = .arrived) (hfound : t.lock? c.requestId = some n) :
    Advances t i c ((t.changeLock n fun l => { l with references := l.references + 1 }).setStage i
      (.waiting n))
  | made (hstage : c.stage = .arrived) (hnone : t.lock? c.requestId = none) :
    Advances t i c (t.making i c.requestId)
  | acquired {n : Nat} {l : SharedLock} (hstage : c.stage = .waiting n)
      (hl : t.locks[n]? = some l) (hfree : l.isHeld = false) :
    Advances t i c ((t.changeLock n fun l => { l with isHeld := true }).setStage i (.inside n))
  | released {n : Nat} (hstage : c.stage = .inside n) : Advances t i c (t.release i n)
  | dropped {n : Nat} (hstage : c.stage = .leaving n) :
    Advances t i c ((t.dropReference n).setStage i .tidying)
  /-- It leaves the table as it is, for there is no lock or somebody else refers to it. -/
  | kept (hstage : c.stage = .tidying)
      (hused : ∀ n, t.lock? c.requestId = some n → t.isUnused n = false) :
    Advances t i c (t.setStage i .gone)
  | removed {n : Nat} (hstage : c.stage = .tidying) (hfound : t.lock? c.requestId = some n)
      (hunused : t.isUnused n = true) :
    Advances t i c (t.removing i c.requestId n)

theorem advances_of_advance? (hadvance : t.advance? i = some later) :
    ∃ c, t.callers[i]? = some c ∧ Advances t i c later := by
  unfold advance? at hadvance
  split at hadvance
  · cases hadvance
  · next c hc =>
      refine ⟨c, hc, ?_⟩
      split at hadvance
      · next hstage =>
          cases hadvance
          unfold refer
          split
          · next n hfound => exact .found hstage hfound
          · next hnone => exact .made hstage hnone
      · next n hstage =>
          unfold acquire? at hadvance
          split at hadvance
          · next l hl =>
              split at hadvance
              · cases hadvance
              · next hfree =>
                  cases hadvance
                  exact .acquired hstage hl (Bool.eq_false_iff.mpr hfree)
          · cases hadvance
      · next n hstage =>
          cases hadvance
          exact .released hstage
      · next n hstage =>
          cases hadvance
          exact .dropped hstage
      · next hstage =>
          cases hadvance
          unfold tidy
          split
          · next n hfound =>
              split
              · next hunused => exact .removed hstage hfound hunused
              · next hused =>
                  refine .kept hstage fun m hm => ?_
                  cases hfound.symm.trans hm
                  exact Bool.eq_false_iff.mpr hused
          · next hnone => exact .kept hstage fun m hm => absurd (hnone.symm.trans hm) (by simp)
      · cases hadvance

/-! ## What every step keeps -/

/-- What is so of every table that comes about. -/
structure Sound (t : LockTable) : Prop extends t.Placed, t.Counted

theorem sound_empty : empty.Sound where
  made _ _ hn := by cases hn
  own _ _ _ hn := by cases hn
  listed _ hc := by cases hc
  needed _ _ hn := by cases hn
  references _ _ _ hn := by cases hn
  held _ _ hl := by cases hl

/-- A caller who only comes refers to nothing. -/
theorem Sound.arrive (hsound : t.Sound) (id : RequestId) : (t.arrive id).Sound where
  made := hsound.made
  own := hsound.own
  listed := by
    intro c hc n hn
    rcases List.mem_append.mp hc with hbefore | hnew
    · exact hsound.listed c hbefore n hn
    · cases List.mem_singleton.mp hnew
      cases hn
  needed := by
    intro other n hn
    obtain ⟨c, hc, hid, hunderway⟩ := hsound.needed other n hn
    exact ⟨c, List.mem_append_left _ hc, hid, hunderway⟩
  references := by
    intro other n l hn hl
    have hcount := hsound.references other n l hn hl
    simpa [countReferring, LockTable.arrive, LockStage.lock?] using hcount
  held := by
    intro n l hl
    have hcount := hsound.held n l hl
    simpa [countHolding, LockTable.arrive] using hcount

/-- The lock that the table has for a request. -/
theorem Sound.exists_lock (hsound : t.Sound) (hn : t.lock? id = some n) :
    ∃ l, t.locks[n]? = some l ∧ l.references = t.countReferring n + 1 ∧
      t.countHolding n = l.isHeld.toNat := by
  have hl := List.getElem?_eq_getElem (hsound.made id n hn)
  exact ⟨_, hl, hsound.references id n _ hn hl, hsound.held n _ hl⟩

/-- A lock that is not unused is referred to, for the request whose lock it is. -/
theorem Sound.exists_referring (hsound : t.Sound) (hn : t.lock? id = some n)
    (hused : t.isUnused n = false) :
    ∃ c ∈ t.callers, c.requestId = id ∧ c.stage.lock? = some n := by
  obtain ⟨l, hl, hreferences, -⟩ := hsound.exists_lock hn
  have hpositive : 0 < t.countReferring n := by
    rw [isUnused, hl] at hused
    have hne : l.references ≠ 1 := of_decide_eq_false hused
    omega
  obtain ⟨c, hc, hreferring⟩ := List.countP_pos_iff.mp hpositive
  have hstage : c.stage.lock? = some n := of_decide_eq_true hreferring
  exact ⟨c, hc, hsound.own _ _ n (hsound.listed c hc n hstage) hn, hstage⟩

/-- Nobody refers to a lock that is unused. -/
theorem Sound.countReferring_of_isUnused (hsound : t.Sound) (hn : t.lock? id = some n)
    (hunused : t.isUnused n = true) : t.countReferring n = 0 := by
  obtain ⟨l, hl, hreferences, -⟩ := hsound.exists_lock hn
  rw [isUnused, hl] at hunused
  have hone : l.references = 1 := of_decide_eq_true hunused
  omega

/-- A caller goes on with the lock that the table has for its request. -/
theorem Sound.change {l : SharedLock} {change : SharedLock → SharedLock} (hsound : t.Sound)
    (hc : t.callers[i]? = some c) (hfound : t.lock? c.requestId = some n)
    (hl : t.locks[n]? = some l) (hafter : ∀ m, stage.lock? = some m → m = n)
    (hunderway : stage.isUnderway)
    (hreferences : (change l).references + (if c.stage.lock? = some n then 1 else 0) =
      l.references + if stage.lock? = some n then 1 else 0)
    (hheld : (change l).isHeld.toNat + (if c.stage = .inside n then 1 else 0) =
      l.isHeld.toNat + if stage = .inside n then 1 else 0) :
    ((t.changeLock n change).setStage i stage).Sound where
  toPlaced := by
    refine (hsound.changeLock n change).proceed hc (fun m hm => ?_) hunderway
    rw [hafter m hm]
    exact hfound
  toCounted := by
    refine hsound.update hc hl (fun m hm => ?_) hafter hreferences hheld
    have hlisted := hsound.listed c (List.mem_of_getElem? hc) m hm
    exact Option.some.inj (hlisted.symm.trans hfound)

section Making

theorem lock?_making (t : LockTable) (i : Nat) (id other : RequestId) :
    (t.making i id).lock? other =
      if other = id then some t.locks.length else t.lock? other :=
  lookup_cons_ite _ _ _ _

theorem locks_making (t : LockTable) (i : Nat) (id : RequestId) :
    (t.making i id).locks = t.locks ++ [SharedLock.fresh] := rfl

/-- A lock is made for a request that has none. -/
theorem Sound.placed_making (hsound : t.Sound) (hc : t.callers[i]? = some c)
    (hnone : t.lock? c.requestId = none) : (t.making i c.requestId).Placed where
  made := by
    intro id n hn
    rw [lock?_making] at hn
    rw [locks_making, List.length_append, List.length_singleton]
    split at hn
    · cases hn
      omega
    · have hbound := hsound.made id n hn
      omega
  own := by
    intro id other n hn hother
    rw [lock?_making] at hn hother
    split at hn
    · next hid =>
        cases hn
        split at hother
        · next heq => rw [hid, heq]
        · exact absurd (hsound.made other _ hother) (Nat.lt_irrefl _)
    · split at hother
      · cases hother
        exact absurd (hsound.made id _ hn) (Nat.lt_irrefl _)
      · exact hsound.own id other n hn hother
  listed := by
    intro other hother n hn
    rw [lock?_making]
    rcases mem_of_mem_setStage hc hother with hbefore | rfl
    · have hlisted := hsound.listed other hbefore n hn
      have hne : other.requestId ≠ c.requestId := by
        intro heq
        rw [heq, hnone] at hlisted
        cases hlisted
      rwa [if_neg hne]
    · rwa [if_pos rfl]
  needed := by
    intro id n hn
    by_cases hid : id = c.requestId
    · exact ⟨_, mem_setStage_self hc _, hid.symm, rfl⟩
    · rw [lock?_making, if_neg hid] at hn
      exact hsound.needed_of_ne hc _ hn hid

theorem getElem?_making {m : Nat} {l : SharedLock} (hl : (t.making i id).locks[m]? = some l) :
    t.locks[m]? = some l ∨ m = t.locks.length ∧ l = SharedLock.fresh := by
  rw [locks_making, List.getElem?_append] at hl
  split at hl
  · exact .inl hl
  · next hbound =>
      obtain ⟨hzero, rfl⟩ := List.getElem?_eq_some_iff.mp hl
      rw [List.length_singleton] at hzero
      exact .inr ⟨by omega, by simp⟩

theorem Sound.counted_making (hsound : t.Sound) (hc : t.callers[i]? = some c)
    (hstage : c.stage = .arrived) : (t.making i c.requestId).Counted where
  references := by
    intro id n l hn hl
    have hreferring : (t.making i c.requestId).countReferring n +
        (if c.stage.lock? = some n then 1 else 0) =
        t.countReferring n + if some t.locks.length = some n then 1 else 0 :=
      countReferring_setStage hc (.waiting t.locks.length) n
    rw [hstage, if_neg (by simp [LockStage.lock?]), Nat.add_zero] at hreferring
    rw [lock?_making] at hn
    split at hn
    · cases hn
      rcases getElem?_making hl with hold | ⟨-, rfl⟩
      · simp at hold
      · rw [if_pos rfl, hsound.countReferring_length] at hreferring
        rw [hreferring]
        rfl
    · have hbound := hsound.made id n hn
      rw [if_neg (by simp; omega), Nat.add_zero] at hreferring
      rcases getElem?_making hl with hold | ⟨rfl, -⟩
      · rw [hreferring]
        exact hsound.references id n l hn hold
      · exact absurd hbound (Nat.lt_irrefl _)
  held := by
    intro n l hl
    have hholding : (t.making i c.requestId).countHolding n = t.countHolding n :=
      countHolding_of_outside hc (by rw [hstage]; rfl) rfl n
    rw [hholding]
    rcases getElem?_making hl with hold | ⟨rfl, rfl⟩
    · exact hsound.held n l hold
    · have hle := countHolding_le_countReferring t t.locks.length
      rw [hsound.countReferring_length] at hle
      exact Nat.le_zero.mp hle

end Making

section Removing

theorem lock?_removing (t : LockTable) (i : Nat) (id other : RequestId) (n : Nat) :
    (t.removing i id n).lock? other = if other = id then none else t.lock? other :=
  lookup_filter_ne _ _ _

/-- A lock that is unused is removed. -/
theorem Sound.placed_removing (hsound : t.Sound) (hc : t.callers[i]? = some c)
    (hfound : t.lock? c.requestId = some n) (hunused : t.isUnused n = true) :
    (t.removing i c.requestId n).Placed where
  made := by
    intro id m hm
    rw [lock?_removing] at hm
    split at hm
    · cases hm
    · exact (hsound.changeLock n _).made id m hm
  own := by
    intro id other m hm hother
    rw [lock?_removing] at hm hother
    split at hm
    · cases hm
    · split at hother
      · cases hother
      · exact hsound.own id other m hm hother
  listed := by
    intro other hother m hm
    rw [lock?_removing]
    rcases mem_of_mem_setStage hc hother with hbefore | rfl
    · have hlisted := hsound.listed other hbefore m hm
      -- Whoever refers to a lock for the same request refers to this one, which is unused.
      have hne : other.requestId ≠ c.requestId := by
        intro heq
        rw [heq, hfound] at hlisted
        cases hlisted
        have hzero := hsound.countReferring_of_isUnused hfound hunused
        exact List.countP_eq_zero.mp hzero other hbefore (decide_eq_true hm)
      rwa [if_neg hne]
    · cases hm
  needed := by
    intro id m hm
    rw [lock?_removing] at hm
    split at hm
    · cases hm
    · next hid => exact hsound.needed_of_ne hc _ hm hid

theorem Sound.counted_removing (hsound : t.Sound) (hc : t.callers[i]? = some c)
    (hstage : c.stage = .tidying) (hfound : t.lock? c.requestId = some n) :
    (t.removing i c.requestId n).Counted where
  references := by
    intro id m l hm hl
    have hreferring : (t.removing i c.requestId n).countReferring m = t.countReferring m :=
      countReferring_of_idle hc (by rw [hstage]; rfl) rfl m
    rw [lock?_removing] at hm
    split at hm
    · cases hm
    · next hid =>
        have hne : m ≠ n := by
          rintro rfl
          exact hid (hsound.own id _ m hm hfound)
        obtain ⟨old, hold, rfl⟩ := exists_of_changeLock (t := t) hl
        rw [hreferring, if_neg hne]
        exact hsound.references id m old hm hold
  held := by
    intro m l hl
    have hholding : (t.removing i c.requestId n).countHolding m = t.countHolding m :=
      countHolding_of_outside hc (by rw [hstage]; rfl) rfl m
    obtain ⟨old, hold, rfl⟩ := exists_of_changeLock (t := t) hl
    rw [hholding, hsound.held m old hold]
    split <;> rfl

end Removing

/-- A caller leaves a table in which there is nothing to tidy. -/
theorem Sound.leave (hsound : t.Sound) (hc : t.callers[i]? = some c)
    (hstage : c.stage = .tidying)
    (hused : ∀ n, t.lock? c.requestId = some n → t.isUnused n = false) :
    (t.setStage i .gone).Sound where
  toPlaced := by
    -- Who still refers to the lock has yet to tidy the table, and the lock is left to that one.
    refine hsound.setStage hc (fun _ hn => by cases hn) fun n hn => ?_
    obtain ⟨other, hother, hid, hreferring⟩ := hsound.exists_referring hn (hused n hn)
    have hne : other ≠ c := by
      rintro rfl
      rw [hstage] at hreferring
      cases hreferring
    refine ⟨other, mem_setStage_of_ne hc _ hother hne, hid, ?_⟩
    exact LockStage.isUnderway_of_lock? hreferring
  references := by
    intro id n l hn hl
    rw [countReferring_of_idle hc (by rw [hstage]; rfl) rfl]
    exact hsound.references id n l hn hl
  held := by
    intro n l hl
    rw [countHolding_of_outside hc (by rw [hstage]; rfl) rfl]
    exact hsound.held n l hl

theorem Sound.advances (hsound : t.Sound) (hc : t.callers[i]? = some c)
    (hadvances : Advances t i c later) : later.Sound := by
  have hmem := List.mem_of_getElem? hc
  cases hadvances with
  | @found n hstage hfound =>
      obtain ⟨l, hl, -, -⟩ := hsound.exists_lock hfound
      refine hsound.change hc hfound hl (by simp [LockStage.lock?]) rfl ?_ ?_
      · simp [hstage, LockStage.lock?]
      · simp [hstage]
  | made hstage hnone =>
      exact ⟨hsound.placed_making hc hnone, hsound.counted_making hc hstage⟩
  | @acquired n l hstage hl hfree =>
      have hfound := hsound.listed_of_stage hmem hstage rfl
      refine hsound.change hc hfound hl (by simp [LockStage.lock?]) rfl ?_ ?_
      · simp [hstage, LockStage.lock?]
      · simp [hstage, hfree]
  | @released n hstage =>
      have hfound := hsound.listed_of_stage hmem hstage rfl
      obtain ⟨l, hl, -, hholding⟩ := hsound.exists_lock hfound
      have hheld : l.isHeld = true := by
        have hpositive : 0 < t.countHolding n := List.countP_pos_iff.mpr ⟨c, hmem, by simp [hstage]⟩
        rw [hholding] at hpositive
        cases hfree : l.isHeld with
        | true => rfl
        | false => simp [hfree] at hpositive
      refine hsound.change hc hfound hl (by simp [LockStage.lock?]) rfl ?_ ?_
      · simp [hstage, LockStage.lock?]
      · simp [hstage, hheld]
  | @dropped n hstage =>
      have hfound := hsound.listed_of_stage hmem hstage rfl
      obtain ⟨l, hl, hreferences, -⟩ := hsound.exists_lock hfound
      refine hsound.change hc hfound hl (by simp [LockStage.lock?]) rfl ?_ ?_
      · simp [hstage, LockStage.lock?]
        omega
      · simp [hstage]
  | kept hstage hused => exact hsound.leave hc hstage hused
  | removed hstage hfound hunused =>
      exact ⟨hsound.placed_removing hc hfound hunused, hsound.counted_removing hc hstage hfound⟩

theorem Sound.step? (hsound : t.Sound) {e : Event} (hstep : t.step? e = some later) :
    later.Sound := by
  cases e with
  | arrival id =>
      cases hstep
      exact hsound.arrive id
  | advance caller =>
      obtain ⟨c, hc, hadvances⟩ := advances_of_advance? hstep
      exact hsound.advances hc hadvances

theorem Sound.run? (hsound : t.Sound) {events : List Event} (hrun : t.run? events = some later) :
    later.Sound := by
  induction events generalizing t with
  | nil =>
      cases hrun
      exact hsound
  | cons e events ih =>
      rw [LockTable.run?] at hrun
      split at hrun
      · next next hstep => exact ih (hsound.step? hstep) hrun
      · cases hrun

end CertAuthority.LockTable
