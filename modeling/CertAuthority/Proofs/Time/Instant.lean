import CertAuthority.Proofs.Time.Calendar
import CertAuthority.Time.Instant

/-!
# Instants and their dates

Which seconds lie in which years, and the time of day that a second has.
-/

namespace CertAuthority.Instant

theorem lt_of_lt_of_le {a b c : Instant} (hab : a < b) (hbc : b ≤ c) : a < c := by
  change _ ∨ _ at hab hbc ⊢
  omega

theorem not_le {a b : Instant} : ¬ a ≤ b ↔ b < a := by
  change ¬ (_ ∨ _) ↔ (_ ∨ _)
  omega

theorem not_lt {a b : Instant} : ¬ a < b ↔ b ≤ a := by
  change ¬ (_ ∨ _) ↔ (_ ∨ _)
  omega

theorem lt_irrefl (a : Instant) : ¬ a < a := by
  change ¬ (_ ∨ _)
  omega

theorem lt_trans {a b c : Instant} (hab : a < b) (hbc : b < c) : a < c := by
  change _ ∨ _ at hab hbc ⊢
  omega

theorem lt_asymm {a b : Instant} (hab : a < b) : ¬ b < a :=
  fun hba => lt_irrefl a (lt_trans hab hba)

theorem ne_of_lt {a b : Instant} (hab : a < b) : a ≠ b := by
  rintro rfl
  exact lt_irrefl a hab

theorem le_of_lt {a b : Instant} (hab : a < b) : a ≤ b :=
  not_lt.mp (lt_asymm hab)

theorem le_of_eq {a b : Instant} (hab : a = b) : a ≤ b :=
  not_lt.mp (hab ▸ lt_irrefl a)

theorem le_trans {a b c : Instant} (hab : a ≤ b) (hbc : b ≤ c) : a ≤ c := by
  change _ ∨ _ at hab hbc ⊢
  omega

theorem le_total (a b : Instant) : a ≤ b ∨ b ≤ a := by
  change (_ ∨ _) ∨ (_ ∨ _)
  omega

theorem le_antisymm {a b : Instant} (hab : a ≤ b) (hba : b ≤ a) : a = b := by
  obtain ⟨seconds, nanos⟩ := a
  change _ ∨ _ at hab hba
  dsimp only at hab hba
  congr 1 <;> omega

theorem lt_or_eq_or_lt (a b : Instant) : a < b ∨ a = b ∨ b < a := by
  by_cases hlt : a < b
  · exact .inl hlt
  · by_cases hgt : b < a
    · exact .inr (.inr hgt)
    · exact .inr (.inl (le_antisymm (not_lt.mp hgt) (not_lt.mp hlt)))

theorem year_le_iff (t : Instant) : t.date.year ≤ 9999 ↔ t.seconds ≤ 253402300799 := by
  rw [date, (Date.year_ofDays _).2, secondsPerDay]
  omega

theorem le_year_iff (t : Instant) : 1970 ≤ t.date.year ↔ 0 ≤ t.seconds := by
  rw [date, (Date.year_ofDays _).1, secondsPerDay]
  omega

/-- That a clock may show an instant as long as it is in use: until the end of the year 2200. -/
def InUse (t : Instant) : Prop :=
  1970 ≤ t.date.year ∧ t.date.year ≤ 2200

theorem inUse_iff (t : Instant) : t.InUse ↔ 0 ≤ t.seconds ∧ t.seconds ≤ 7289654399 := by
  have hafter := Date.le_year_ofDays_iff 2201 (t.seconds / secondsPerDay)
  have hend : (Date.mk 2201 1 1).toDays = 84371 := by decide
  rw [hend] at hafter
  rw [InUse, le_year_iff]
  simp only [date, secondsPerDay] at hafter ⊢
  omega

/-- The years that instants reach. -/
theorem inRange_iff (t : Instant) :
    t.InRange ↔ minYear ≤ t.date.year ∧ t.date.year ≤ maxYear := by
  have hfirst := Date.le_year_ofDays_iff minYear (t.seconds / secondsPerDay)
  have hafter := Date.le_year_ofDays_iff (maxYear + 1) (t.seconds / secondsPerDay)
  have hmin : (Date.mk minYear 1 1).toDays = -96465292 := by decide
  have hmax : (Date.mk (maxYear + 1) 1 1).toDays = 95026237 := by decide
  have hlast : (Date.mk maxYear 12 31).toDays = 95026236 := by decide
  rw [hmin] at hfirst
  rw [hmax] at hafter
  simp only [InRange, minSeconds, maxSeconds, hmin, hlast, date, secondsPerDay] at hfirst hafter ⊢
  omega

/-- Whatever becomes of a leap second, going forward adds the seconds up. -/
theorem addSeconds?_of_nonneg (t : Instant) {delta : Int} (hdelta : 0 ≤ delta) :
    ∃ nanos, t.addSeconds? delta =
      if InRange ⟨t.seconds + delta, nanos⟩ then some ⟨t.seconds + delta, nanos⟩ else none := by
  unfold addSeconds?
  by_cases hstays : t.nanos < nanosPerSecond ∨ delta = 0
  · exact ⟨t.nanos, by simp only [if_pos hstays]⟩
  · have hpositive : 0 < delta := by omega
    exact ⟨t.nanos - nanosPerSecond, by simp only [if_neg hstays, if_pos hpositive]⟩

theorem seconds_of_addSeconds? {t later : Instant} {delta : Int} (hdelta : 0 ≤ delta)
    (hlater : t.addSeconds? delta = some later) : later.seconds = t.seconds + delta := by
  obtain ⟨nanos, hsum⟩ := t.addSeconds?_of_nonneg hdelta
  rw [hsum, Option.ite_none_right_eq_some] at hlater
  rw [← Option.some.inj hlater.2]

/-- Counted in seconds, days have one length, whether or not they start in a leap second. -/
theorem seconds_of_addDays? {t later : Instant} {days : Nat}
    (hlater : t.addDays? days = some later) : later.seconds = t.seconds + days * 86400 :=
  seconds_of_addSeconds? (Int.mul_nonneg (Int.natCast_nonneg days) (by decide)) hlater

/-- Going forward leads out of the calendar only at its end. -/
theorem addSeconds?_eq_none_iff {t : Instant} {delta : Int} (ht : minSeconds ≤ t.seconds)
    (hdelta : 0 ≤ delta) : t.addSeconds? delta = none ↔ maxSeconds < t.seconds + delta := by
  obtain ⟨nanos, hsum⟩ := t.addSeconds?_of_nonneg hdelta
  have hfirst : minSeconds ≤ t.seconds + delta := by omega
  rw [hsum, ite_eq_right_iff, ← Int.not_le]
  exact ⟨fun hnone hle => (Option.some_ne_none _ (hnone ⟨hfirst, hle⟩)).elim,
    fun hbeyond hrange => (hbeyond hrange.2).elim⟩

/-- The second of the day is an hour, a minute and a second of them. -/
theorem secondOfDay_eq (t : Instant) :
    t.secondOfDay = t.hour * 3600 + t.minute * 60 + t.secondOfDay % 60 ∧ t.hour ≤ 23 ∧
      t.minute ≤ 59 := by
  unfold hour minute secondOfDay secondsPerDay
  omega

/-- What there is of instants: a fraction of a second or more is that of a leap second, which
follows the last second of a minute. -/
structure IsValid (t : Instant) : Prop where
  inRange : t.InRange
  nanos : t.nanos < nanosPerSecond ∨ t.nanos < 2 * nanosPerSecond ∧ t.seconds % 60 = 59

/-- A leap second that is left behind leaves no trace. -/
theorem IsValid.addSeconds? {t later : Instant} (ht : t.IsValid) {delta : Int}
    (hlater : t.addSeconds? delta = some later) : later.IsValid := by
  have hnanos := ht.nanos
  simp only [Instant.addSeconds?, Option.ite_none_right_eq_some, Option.some.injEq] at hlater
  obtain ⟨hrange, rfl⟩ := hlater
  refine ⟨hrange, ?_⟩
  split
  · next hstays =>
      rcases hstays with hplain | rfl
      · exact .inl hplain
      · simpa using hnanos
  · split
    · exact .inl (by dsimp only; omega)
    · exact .inl (by dsimp only; omega)

/-- A positive number of seconds later, a leap second has fallen back to the second before it. -/
theorem eq_of_addSeconds? {t later : Instant} {delta : Int} (hdelta : 0 < delta)
    (hlater : t.addSeconds? delta = some later) : later = ⟨t.seconds + delta, t.fraction⟩ := by
  by_cases hplain : t.nanos < nanosPerSecond
  · have hfraction : ¬ nanosPerSecond ≤ t.nanos := Nat.not_le.mpr hplain
    simp only [addSeconds?, hplain, true_or, if_true, Option.ite_none_right_eq_some,
      Option.some.injEq] at hlater
    rw [fraction, if_neg hfraction, hlater.2]
  · have hfraction : nanosPerSecond ≤ t.nanos := Nat.not_lt.mp hplain
    simp only [addSeconds?, hplain, hdelta, Int.ne_of_gt hdelta, or_self, if_false, if_true,
      Option.ite_none_right_eq_some, Option.some.injEq] at hlater
    rw [fraction, if_pos hfraction, hlater.2]

theorem eq_of_addDays? {t later : Instant} {days : Nat} (hdays : 0 < days)
    (hlater : t.addDays? days = some later) :
    later = ⟨t.seconds + days * secondsPerDay, t.fraction⟩ := by
  have hpositive : 0 < (days : Int) * secondsPerDay := by
    simp only [secondsPerDay]
    omega
  exact eq_of_addSeconds? hpositive hlater

end CertAuthority.Instant
