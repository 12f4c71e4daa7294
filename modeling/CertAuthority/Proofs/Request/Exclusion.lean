import CertAuthority.Proofs.Request.Locking
import Mathlib.Algebra.GroupWithZero.Nat

/-!
# Who is let in to a request

All callers for one request that refer to a lock at all refer to the same one, so that no two of
them are inside at a time.  Whoever waits, waits for somebody who can go on, and with the last
caller for a request its lock leaves the table.
-/

namespace CertAuthority

theorem LockStage.exists_of_isInside {stage : LockStage} (hinside : stage.isInside) :
    ∃ n, stage = .inside n := by
  cases stage with
  | inside n => exact ⟨n, rfl⟩
  | _ => cases hinside

/-- How many steps a caller has before it. -/
def LockStage.stepsLeft : LockStage → Nat
  | .arrived => 5
  | .waiting _ => 4
  | .inside _ => 3
  | .leaving _ => 2
  | .tidying => 1
  | .gone => 0

namespace LockTable

variable {t later : LockTable} {i n : Nat} {c : LockCaller} {id : RequestId}

/-! ## Nobody is kept out for ever -/

/-- A lock that is held is held by a caller. -/
theorem Sound.exists_inside (hsound : t.Sound) {l : SharedLock}
    (hl : t.locks[n]? = some l) (hheld : l.isHeld = true) : ∃ c ∈ t.callers, c.stage = .inside n := by
  have hpositive : 0 < t.countHolding n := by
    rw [hsound.held n l hl, hheld]
    exact Nat.one_pos
  obtain ⟨c, hc, hinside⟩ := List.countP_pos_iff.mp hpositive
  exact ⟨c, hc, of_decide_eq_true hinside⟩

/-- As long as somebody has steps left, somebody can take one. -/
theorem Sound.exists_advance (hsound : t.Sound) (hc : c ∈ t.callers) (hstage : c.stage ≠ .gone) :
    ∃ caller later, t.advance? caller = some later := by
  simp only [← Option.isSome_iff_exists]
  obtain ⟨i, hi⟩ := List.mem_iff_getElem?.mp hc
  cases hnow : c.stage with
  | arrived => exact ⟨i, by simp [advance?, hi, hnow]⟩
  | waiting n =>
      have hfound := hsound.listed_of_stage hc hnow rfl
      obtain ⟨l, hl, -, -⟩ := hsound.exists_lock hfound
      cases hheld : l.isHeld with
      | false => exact ⟨i, by simp [advance?, hi, hnow, acquire?, hl, hheld]⟩
      | true =>
          obtain ⟨holder, hholder, hinside⟩ := hsound.exists_inside hl hheld
          obtain ⟨j, hj⟩ := List.mem_iff_getElem?.mp hholder
          exact ⟨j, by simp [advance?, hj, hinside]⟩
  | inside n => exact ⟨i, by simp [advance?, hi, hnow]⟩
  | leaving n => exact ⟨i, by simp [advance?, hi, hnow]⟩
  | tidying => exact ⟨i, by simp [advance?, hi, hnow]⟩
  | gone => exact absurd hnow hstage

/-- How many steps all callers have before them. -/
def stepsLeft (t : LockTable) : Nat :=
  (t.callers.map (·.stage.stepsLeft)).sum

theorem stepsLeft_setStage (hc : t.callers[i]? = some c) (stage : LockStage) :
    (t.setStage i stage).stepsLeft + c.stage.stepsLeft = t.stepsLeft + stage.stepsLeft := by
  obtain ⟨before, after, hcallers, hlater⟩ := exists_callers_setStage hc stage
  rw [stepsLeft, stepsLeft, hcallers, hlater]
  simp only [List.map_append, List.map_cons, List.sum_append, List.sum_cons]
  omega

/-- Each step of a caller is one of the steps that are left. -/
theorem Advances.stepsLeft (hc : t.callers[i]? = some c) (hadvances : Advances t i c later) :
    later.stepsLeft + 1 = t.stepsLeft := by
  have hleft (s : LockTable) (hs : s.callers = t.callers) (stage : LockStage)
      (hnext : stage.stepsLeft + 1 = c.stage.stepsLeft) :
      (s.setStage i stage).stepsLeft + 1 = t.stepsLeft := by
    have hsame : s.stepsLeft = t.stepsLeft := by rw [LockTable.stepsLeft, LockTable.stepsLeft, hs]
    have hcount := stepsLeft_setStage (hs.symm ▸ hc) stage
    omega
  cases hadvances with
  | found hstage hfound => exact hleft _ rfl _ (by rw [hstage]; rfl)
  | made hstage hnone => exact hleft _ rfl _ (by rw [hstage]; rfl)
  | acquired hstage hl hfree => exact hleft _ rfl _ (by rw [hstage]; rfl)
  | released hstage => exact hleft _ rfl _ (by rw [hstage]; rfl)
  | dropped hstage => exact hleft _ rfl _ (by rw [hstage]; rfl)
  | kept hstage hused => exact hleft _ rfl _ (by rw [hstage]; rfl)
  | removed hstage hfound hunused => exact hleft _ rfl _ (by rw [hstage]; rfl)

/-- All callers can be brought to their end. -/
theorem Sound.exists_completion (hsound : t.Sound) :
    ∃ (callers : List Nat) (later : LockTable), t.run? (callers.map .advance) = some later ∧
      ∀ c ∈ later.callers, c.stage = .gone := by
  induction hsteps : t.stepsLeft generalizing t with
  | zero =>
      refine ⟨[], t, rfl, fun c hc => ?_⟩
      by_contra hstage
      obtain ⟨caller, later, hadvance⟩ := hsound.exists_advance hc hstage
      obtain ⟨_, hcaller, hadvances⟩ := advances_of_advance? hadvance
      have hleft := hadvances.stepsLeft hcaller
      omega
  | succ left ih =>
      by_cases hdone : ∀ c ∈ t.callers, c.stage = .gone
      · exact ⟨[], t, rfl, hdone⟩
      · obtain ⟨c, hc, hstage⟩ : ∃ c ∈ t.callers, c.stage ≠ .gone := by simpa using hdone
        obtain ⟨caller, next, hadvance⟩ := hsound.exists_advance hc hstage
        obtain ⟨_, hcaller, hadvances⟩ := advances_of_advance? hadvance
        have hleft := hadvances.stepsLeft hcaller
        obtain ⟨callers, later, hrun, hgone⟩ :=
          ih (hsound.advances hcaller hadvances) (by omega)
        refine ⟨caller :: callers, later, ?_, hgone⟩
        rw [List.map_cons, LockTable.run?, LockTable.step?, hadvance]
        exact hrun

/-! ## Exclusion -/

/-- The callers inside for a request all hold the lock that the table has for it. -/
theorem Sound.countInside_le_one (hsound : t.Sound) (id : RequestId) : t.countInside id ≤ 1 := by
  have hinside (c : LockCaller) (hc : c ∈ t.callers) (hid : c.requestId = id)
      (hstage : c.stage.isInside) : ∃ n, c.stage = .inside n ∧ t.lock? id = some n := by
    obtain ⟨n, hn⟩ := LockStage.exists_of_isInside hstage
    exact ⟨n, hn, hid ▸ hsound.listed_of_stage hc hn rfl⟩
  by_cases hnobody : t.countInside id = 0
  · omega
  · obtain ⟨c, hc, hcounted⟩ := List.countP_pos_iff.mp (Nat.pos_of_ne_zero hnobody)
    obtain ⟨hid, hstage⟩ := of_decide_eq_true hcounted
    obtain ⟨n, -, hfound⟩ := hinside c hc hid hstage
    obtain ⟨l, -, -, hholding⟩ := hsound.exists_lock hfound
    calc t.countInside id ≤ t.countHolding n := by
          refine List.countP_mono_left fun other hother hcounted => ?_
          obtain ⟨hid, hstage⟩ := of_decide_eq_true hcounted
          obtain ⟨m, hm, hthere⟩ := hinside other hother hid hstage
          cases hfound.symm.trans hthere
          exact decide_eq_true hm
      _ = l.isHeld.toNat := hholding
      _ ≤ 1 := Bool.toNat_le l.isHeld

/-- A lock in the table is there for a caller who has steps left. -/
theorem Sound.lock?_of_idle (hsound : t.Sound) (hidle : t.isInUse id = false) :
    t.lock? id = none := by
  rw [Option.eq_none_iff_forall_ne_some]
  intro n hn
  obtain ⟨c, hc, hid, hunderway⟩ := hsound.needed id n hn
  refine List.any_eq_false.mp hidle c hc (decide_eq_true ⟨hid, ?_⟩)
  intro hgone
  rw [hgone] at hunderway
  cases hunderway

theorem entries_eq_nil (hnone : ∀ id, t.lock? id = none) : t.entries = [] := by
  cases hentries : t.entries with
  | nil => rfl
  | cons entry entries =>
      have hlock := hnone entry.1
      rw [lock?, hentries, List.lookup_cons_self] at hlock
      cases hlock

/-- What the table of locks gives its callers. -/
structure Exclusion (t : LockTable) : Prop where
  /-- Of all callers for one request at most one is inside. -/
  alone : ∀ id, t.countInside id ≤ 1
  /-- Whoever refers to a lock refers to the one that the table has for the request: nobody holds or
  awaits a lock that was removed. -/
  current : ∀ c ∈ t.callers, ∀ n, c.stage.lock? = some n → t.lock? c.requestId = some n
  /-- When a lock is about to be made for a request, nobody holds or awaits another. -/
  fresh : ∀ id, t.lock? id = none → ∀ c ∈ t.callers, c.requestId = id → c.stage.lock? = none
  /-- The table has no lock for a request unless some caller for it has steps left. -/
  cleared : ∀ id, t.isInUse id = false → t.lock? id = none
  /-- All callers can be brought to their end, and then the table is empty. -/
  completed : ∃ (callers : List Nat) (later : LockTable), t.run? (callers.map .advance) = some later ∧
    (∀ c ∈ later.callers, c.stage = .gone) ∧ later.entries = []

/-- However the steps of any number of callers follow one another, the table lets one of them in at
a time for each request, and keeps no lock that nobody needs. -/
theorem exclusion {events : List Event} {t : LockTable} (hrun : empty.run? events = some t) :
    Exclusion t where
  alone := (sound_empty.run? hrun).countInside_le_one
  current := (sound_empty.run? hrun).listed
  fresh := by
    rintro id hnone c hc rfl
    rw [Option.eq_none_iff_forall_ne_some]
    intro n hn
    have hlisted := (sound_empty.run? hrun).listed c hc n hn
    rw [hnone] at hlisted
    cases hlisted
  cleared := fun _ => (sound_empty.run? hrun).lock?_of_idle
  completed := by
    obtain ⟨callers, later, hlater, hgone⟩ := (sound_empty.run? hrun).exists_completion
    refine ⟨callers, later, hlater, hgone, entries_eq_nil fun id => ?_⟩
    refine ((sound_empty.run? hrun).run? hlater).lock?_of_idle ?_
    exact List.any_eq_false.mpr fun c hc => by simp [hgone c hc]

/-- Three callers for one request: the first has left the lock to the second and does not remove it,
and the third, who came in between, waits for the same lock. -/
def crowd : List Event :=
  [.arrival ⟨"req"⟩, .advance 0, .arrival ⟨"req"⟩, .advance 0, .advance 1, .advance 0, .advance 0,
    .advance 1, .arrival ⟨"req"⟩, .advance 2, .advance 0]

theorem exclusion_of_crowd :
    ∃ t, empty.run? crowd = some t ∧ t.countInside ⟨"req"⟩ = 1 ∧
      t.callers.map (·.stage) = [.gone, .inside 0, .waiting 0] ∧ Exclusion t :=
  ⟨_, rfl, rfl, rfl, exclusion (show empty.run? crowd = some _ from rfl)⟩

end LockTable

end CertAuthority
