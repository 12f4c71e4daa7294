import CertAuthority.Authority.Issuance
import CertAuthority.Proofs.Authority.Acceptance
import CertAuthority.Proofs.Time.Instant

/-!
# How far the days of a certificate may reach

The dates of a certificate end with the year 9999, long before the calendar does.  A certificate
that would be valid beyond that is not signed: its last date cannot be given, or, further out still,
there is no such date, and the task that signs it ends.  Nothing else fails for a date.
-/

namespace CertAuthority

namespace Issuance

open Instant (maxSeconds secondsPerDay)

/-- That some days from a time on end after the last second that a date can give. -/
def Late (now : Instant) (days : Nat) : Prop :=
  lastSecond < now.seconds + days * secondsPerDay

instance (now : Instant) (days : Nat) : Decidable (Late now days) :=
  inferInstanceAs (Decidable (_ < _))

/-- The failure of a signature whose days end too late. -/
def lateness (now : Instant) (days : Nat) : IssuanceFailure :=
  if maxSeconds < now.seconds + days * secondsPerDay then .calendar
  else .error (.internal "timestamp out of range")

/-- What whoever asked for the signature is told then. -/
def complaint (now : Instant) (days : Nat) : CaError :=
  if maxSeconds < now.seconds + days * secondsPerDay then .signing "signing task failed"
  else .internal "timestamp out of range"

/-- A failure to sign that has nothing to do with a date. -/
def IsTimely (f : IssuanceFailure) : Prop :=
  ∃ text, f = .error (.signing text) ∧ text ≠ "signing task failed"

variable {a : Authority} {c : Candidate} {csrPem : String} {now : Instant} {days : Nat}
variable {issuer : CertificateIssuer} {draw : Draw} {f : IssuanceFailure}

theorem ofTask_lateness (now : Instant) (days : Nat) :
    Authority.ofTask (.error (lateness now days)) = .error (complaint now days) := by
  unfold lateness complaint
  split
  · rfl
  · rfl

theorem addDays?_eq_none_iff (hnow : 0 ≤ now.seconds) (days : Nat) :
    now.addDays? days = none ↔ maxSeconds < now.seconds + days * secondsPerDay :=
  Instant.addSeconds?_eq_none_iff ((by decide : Instant.minSeconds ≤ 0).trans hnow)
    (Int.mul_nonneg (Int.natCast_nonneg days) (by decide))

theorem dateOf_of_le {t : Instant} (ht : 0 ≤ t.seconds) :
    dateOf t = if lastSecond < t.seconds then .error (.internal "timestamp out of range")
      else .ok (.ofSeconds t.seconds) := by
  have hfirst : ¬ t.seconds < firstSecond := Int.not_lt.mpr ((by decide : firstSecond ≤ 0).trans ht)
  rw [dateOf]
  simp only [hfirst, false_or]

/-- Whatever is signed ends in time. -/
theorem expires_le_of_sign {issued : IssuedCertificate}
    (hsigned : sign a csrPem days issuer now draw = .ok issued) :
    issued.expiresAt.seconds ≤ lastSecond := by
  unfold sign at hsigned
  split at hsigned
  · cases hsigned
  · unfold issue at hsigned
    split at hsigned
    · cases hsigned
    · next expiresAt hexpires =>
        have hdate {date : X509.CertificateDate} (hlast : dateOf expiresAt = .ok date) :
            expiresAt.seconds ≤ lastSecond := by
          by_contra hlate
          rw [dateOf, if_pos (.inr (Int.not_le.mp hlate))] at hlast
          cases hlast
        split at hsigned
        · cases hsigned
        · cases hsigned
        · next hlast =>
            have hends := hdate hlast
            split at hsigned
            · cases hsigned
            · split at hsigned
              · cases hsigned
              · split at hsigned
                · cases hsigned
                · cases hsigned
                  exact hends

/-- The days from the end of the year 2200 to the end of the last year that dates can give. -/
def reach : Nat := 2848526

/-- Some days end in time whenever the clock is in use if and only if they are no more than there
are from the year 2200 on. -/
theorem not_late_iff (days : Nat) :
    (∀ now : Instant, now.InUse → ¬ Late now days) ↔ days ≤ reach := by
  have hend : lastSecond = 7289654399 + reach * secondsPerDay := by decide
  simp only [Late, hend, secondsPerDay]
  constructor
  · intro hall
    have hlast := hall ⟨7289654399, 0⟩ ((Instant.inUse_iff _).mpr (by decide))
    dsimp only at hlast
    omega
  · intro hdays now hnow
    have hused := ((Instant.inUse_iff now).mp hnow).2
    omega

/-- One day more ends too late from the last second of the year 2200 on. -/
example : ¬ Late ⟨7289654399, 0⟩ reach ∧ Late ⟨7289654399, 0⟩ (reach + 1) := by
  decide

section InUse

variable (hnow : now.InUse)

include hnow

theorem fits_iff : Fits now days ↔ ¬ Late now days := by
  have hseconds := ((Instant.inUse_iff now).mp hnow).1
  constructor
  · rintro ⟨-, expiresAt, hexpires, hyear⟩
    have hlast := (Instant.year_le_iff expiresAt).mp hyear
    rw [Instant.seconds_of_addDays? hexpires] at hlast
    exact Int.not_lt.mpr hlast
  · intro htimely
    refine ⟨hnow.1, ?_⟩
    cases hexpires : now.addDays? days with
    | none =>
        have hbeyond := (addDays?_eq_none_iff hseconds days).mp hexpires
        have hdates : lastSecond ≤ maxSeconds := by decide
        exact (htimely (Int.lt_of_le_of_lt hdates hbeyond)).elim
    | some expiresAt =>
        refine ⟨expiresAt, rfl, (Instant.year_le_iff expiresAt).mpr ?_⟩
        rw [Instant.seconds_of_addDays? hexpires]
        exact Int.not_lt.mp htimely

/-- Days that end too late are not signed for. -/
theorem issue_of_late (hlate : Late now days) :
    issue a c days issuer now draw = .error (lateness now days) := by
  obtain ⟨hfirst, hlast⟩ := (Instant.inUse_iff now).mp hnow
  unfold issue lateness
  cases hexpires : now.addDays? days with
  | none => rw [if_pos ((addDays?_eq_none_iff hfirst days).mp hexpires)]
  | some expiresAt =>
      have hwithin : ¬ maxSeconds < now.seconds + days * secondsPerDay := by
        rw [← addDays?_eq_none_iff hfirst, hexpires]
        exact Option.some_ne_none _
      have hseconds := Instant.seconds_of_addDays? hexpires
      have hbegins : ¬ lastSecond < now.seconds :=
        Int.not_lt.mpr (hlast.trans (by decide))
      have hends : lastSecond < expiresAt.seconds := by
        rw [hseconds]
        exact hlate
      have hlater : 0 ≤ expiresAt.seconds := by omega
      rw [if_neg hwithin]
      simp only [dateOf_of_le hfirst, dateOf_of_le hlater, if_neg hbegins, if_pos hends]

/-- Days that end in time fail for no date. -/
theorem isTimely_of_issue (htimely : ¬ Late now days)
    (hfailed : issue a c days issuer now draw = .error f) : IsTimely f := by
  obtain ⟨hfirst, expiresAt, hexpires, hlast⟩ := (fits_iff hnow).mpr htimely
  have hseconds := Instant.seconds_of_addDays? hexpires
  have hlater : 1970 ≤ expiresAt.date.year := by
    rw [Instant.le_year_iff] at hfirst ⊢
    omega
  have hearlier : now.date.year ≤ 9999 := hnow.2.trans (by decide)
  have hyears {t : Instant} (hyear : 1970 ≤ t.date.year ∧ t.date.year ≤ 9999) :
      0 ≤ (Instant.ofSeconds t.seconds).date.year ∧
        (Instant.ofSeconds t.seconds).date.year ≤ 9999 :=
    ⟨Int.le_trans (by decide) hyear.1, hyear.2⟩
  obtain ⟨content, hwritten, -⟩ :=
    X509.Validity.exists_written (hyears ⟨hfirst, hearlier⟩) (hyears ⟨hlater, hlast⟩)
  simp only [issue, hexpires, dateOf_eq ⟨hfirst, hearlier⟩, dateOf_eq ⟨hlater, hlast⟩,
    hwritten] at hfailed
  split at hfailed
  · cases hfailed
    exact ⟨_, rfl, by decide⟩
  · split at hfailed
    · cases hfailed
      exact ⟨_, rfl, by decide⟩
    · cases hfailed

theorem sign_of_late (hcandidate : Candidate.read? csrPem = some c) (hlate : Late now days) :
    sign a csrPem days issuer now draw = .error (lateness now days) := by
  rw [sign, hcandidate]
  exact issue_of_late hnow hlate

theorem isTimely_of_sign (htimely : ¬ Late now days)
    (hfailed : sign a csrPem days issuer now draw = .error f) : IsTimely f := by
  unfold sign at hfailed
  split at hfailed
  · cases hfailed
    exact ⟨_, rfl, by decide⟩
  · exact isTimely_of_issue hnow htimely hfailed

end InUse

end Issuance

end CertAuthority
