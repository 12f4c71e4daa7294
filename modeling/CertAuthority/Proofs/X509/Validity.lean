import CertAuthority.Proofs.Asn1.Element
import CertAuthority.Proofs.Time.Instant
import CertAuthority.X509.Validity

/-!
# Dates in certificates are read back

The date of a whole second in a year of at most four digits can be written, and is read back as it
was.
-/

namespace CertAuthority

namespace X509.CertificateDate

section Digits

variable (n : Nat) (rest : Bytes)

theorem isDigit_ofNat : 0x30 ≤ UInt8.ofNat (0x30 + n % 10) ∧ UInt8.ofNat (0x30 + n % 10) ≤ 0x39 ∧
    (UInt8.ofNat (0x30 + n % 10)).toNat = 0x30 + n % 10 := by
  have hvalue : (UInt8.ofNat (0x30 + n % 10)).toNat = 0x30 + n % 10 := by
    rw [UInt8.toNat_ofNat']
    omega
  refine ⟨?_, ?_, hvalue⟩
  · rw [UInt8.le_iff_toNat_le, hvalue]
    exact Nat.le_add_right _ _
  · rw [UInt8.le_iff_toNat_le, hvalue]
    exact Nat.add_le_add_left (Nat.le_of_lt_succ (Nat.mod_lt n (by decide))) 0x30

theorem twoDigits_digits : twoDigits (digits n ++ rest) = some (n % 100, rest) := by
  obtain ⟨htensLow, htensHigh, htens⟩ := isDigit_ofNat (n / 10)
  obtain ⟨hunitsLow, hunitsHigh, hunits⟩ := isDigit_ofNat n
  have hdigits := And.intro htensLow (And.intro htensHigh (And.intro hunitsLow hunitsHigh))
  simp only [digits, List.cons_append, List.nil_append, twoDigits, if_pos hdigits, htens, hunits,
    Option.some.injEq, Prod.mk.injEq, and_true]
  omega

theorem optionalDigits_digits : optionalDigits (digits n ++ rest) = some (n % 100, rest) := by
  obtain ⟨hlow, hhigh, -⟩ := isDigit_ofNat (n / 10)
  have htwo := twoDigits_digits n rest
  simp only [digits, List.cons_append, List.nil_append] at htwo ⊢
  rw [optionalDigits, if_pos ⟨hlow, hhigh⟩, htwo]

end Digits

/-- What follows the year in a date. -/
def tail (t : Instant) : Bytes :=
  digits t.date.month ++ digits t.date.day ++ digits t.hour ++ digits t.minute ++
    digits t.second ++ [0x5A]

/-- The fields of a date of the calendar give its second. -/
theorem secondsOf_ofSeconds (seconds : Int) :
    secondsOf (Instant.ofSeconds seconds).date (Instant.ofSeconds seconds).hour
      (Instant.ofSeconds seconds).minute (Instant.ofSeconds seconds).second = some seconds := by
  have hvalid : (Instant.ofSeconds seconds).date.isValid = true := Date.isValid_ofDays _
  have hsecond : (Instant.ofSeconds seconds).second = (Instant.ofSeconds seconds).secondOfDay % 60 :=
    rfl
  obtain ⟨hsum, hhour, hminute⟩ := Instant.secondOfDay_eq (Instant.ofSeconds seconds)
  have hsecond_le : (Instant.ofSeconds seconds).second ≤ 59 := by omega
  rw [secondsOf, if_pos ⟨hvalid, hhour, hminute, hsecond_le⟩, hsecond, ← hsum, Instant.date,
    Date.toDays_ofDays]
  simp only [Instant.secondOfDay, Instant.ofSeconds, Instant.secondsPerDay, Option.some.injEq]
  omega

/-- A date is read back if its year is. -/
theorem ofContent_of_readYear {isGeneralized : Bool} {year : Bytes} {seconds : Int} {n : Nat}
    (hyear : (Instant.ofSeconds seconds).date.year = n)
    (hread : ∀ rest, readYear isGeneralized (year ++ rest) = some (n, rest)) :
    ofContent isGeneralized (year ++ tail (Instant.ofSeconds seconds)) =
      some ⟨seconds, isGeneralized⟩ := by
  have hseconds := secondsOf_ofSeconds seconds
  obtain ⟨-, hhour, hminute⟩ := Instant.secondOfDay_eq (Instant.ofSeconds seconds)
  have hsecond : (Instant.ofSeconds seconds).second ≤ 59 :=
    Nat.le_of_lt_succ (Nat.mod_lt _ (by decide))
  have hvalid : (Instant.ofSeconds seconds).date.isValid = true := Date.isValid_ofDays _
  generalize Instant.ofSeconds seconds = t at hyear hseconds hhour hminute hsecond hvalid ⊢
  obtain ⟨hmonth, hday⟩ := Date.bounds_of_isValid hvalid
  have hdate : (⟨n, t.date.month, t.date.day⟩ : Date) = t.date := by rw [← hyear]
  simp only [ofContent, tail, List.append_assoc, hread, Option.bind_eq_bind, Option.bind_some,
    twoDigits_digits, optionalDigits_digits, ite_self, zone]
  rw [Nat.mod_eq_of_lt (Nat.lt_of_le_of_lt hmonth (by decide)),
    Nat.mod_eq_of_lt (Nat.lt_of_le_of_lt hday (by decide)),
    Nat.mod_eq_of_lt (Nat.lt_of_le_of_lt hhour (by decide)),
    Nat.mod_eq_of_lt (Nat.lt_of_le_of_lt hminute (by decide)),
    Nat.mod_eq_of_lt (Nat.lt_of_le_of_lt hsecond (by decide)), hdate, hseconds]
  simp

theorem readYear_digits {year : Nat} (hyear : year ≤ 9999) (rest : Bytes) :
    readYear true (digits (year / 100) ++ digits (year % 100) ++ rest) = some (year, rest) := by
  simp only [readYear, List.append_assoc, twoDigits_digits, Option.bind_eq_bind, Option.bind_some,
    if_true, Option.pure_def, Option.some.injEq, Prod.mk.injEq, and_true]
  omega

theorem readYear_short {year : Nat} (hfirst : 1950 ≤ year) (hlast : year < 2050) (rest : Bytes) :
    readYear false (digits (year % 100) ++ rest) = some (year, rest) := by
  simp only [readYear, twoDigits_digits, Option.bind_eq_bind, Option.bind_some, fullYear,
    Option.pure_def, Option.some.injEq, Prod.mk.injEq, and_true, Bool.false_eq_true, if_false]
  split <;> omega

/-- A date as it is written. -/
theorem encode?_ofSeconds (seconds : Int) :
    (ofSeconds seconds).encode? =
      let t := Instant.ofSeconds seconds
      if t.date.year < 0 ∨ 9999 < t.date.year then none
      else if needsFullYear t.date.year then
        some (Asn1.encode Asn1.generalizedTime
          (digits (t.date.year.toNat / 100) ++ digits (t.date.year.toNat % 100) ++ tail t))
      else some (Asn1.encode Asn1.utcTime (digits (t.date.year.toNat % 100) ++ tail t)) :=
  rfl

theorem year_of_encode? {seconds : Int} {written : Bytes}
    (hwritten : (ofSeconds seconds).encode? = some written) :
    0 ≤ (Instant.ofSeconds seconds).date.year ∧ (Instant.ofSeconds seconds).date.year ≤ 9999 := by
  rw [encode?_ofSeconds] at hwritten
  dsimp only at hwritten
  split at hwritten
  · cases hwritten
  · next hinside => omega

theorem isStrict_written (t : Instant) (n : Nat) (encoded : Bytes) :
    isStrict ⟨Asn1.generalizedTime, digits (n / 100) ++ digits (n % 100) ++ tail t, encoded⟩ = true ∧
      isStrict ⟨Asn1.utcTime, digits (n % 100) ++ tail t, encoded⟩ = true := by
  simp [isStrict, tail, digits, Asn1.generalizedTime, Asn1.utcTime]

/-- The written form of a date that has one, which is read back, and whose text is strict. -/
theorem exists_encode? {seconds : Int} (hfirst : 0 ≤ (Instant.ofSeconds seconds).date.year)
    (hlast : (Instant.ofSeconds seconds).date.year ≤ 9999) :
    ∃ identifier content, (ofSeconds seconds).encode? = some (Asn1.encode identifier content) ∧
      identifier.toNat % 32 ≠ 31 ∧ content.length ≤ 15 ∧
      ∀ encoded, ofElement ⟨identifier, content, encoded⟩ = some (ofSeconds seconds) ∧
        isStrict ⟨identifier, content, encoded⟩ = true := by
  obtain ⟨year, hyear⟩ := Int.eq_ofNat_of_zero_le hfirst
  have hinside : ¬ ((year : Int) < 0 ∨ 9999 < (year : Int)) := by omega
  by_cases hfull : needsFullYear (Instant.ofSeconds seconds).date.year
  · have hwritten := encode?_ofSeconds seconds
    simp only [hfull, if_true] at hwritten
    simp only [hyear, if_neg hinside, Int.toNat_natCast] at hwritten
    refine ⟨_, _, hwritten, by decide, Nat.le_refl _, fun encoded =>
      ⟨?_, (isStrict_written _ _ encoded).1⟩⟩
    rw [ofElement, if_neg (by simp [Asn1.generalizedTime, Asn1.utcTime]), if_pos rfl,
      ofContent_of_readYear hyear (readYear_digits (by omega)), ofSeconds, hfull]
  · have hbounds := hfull
    simp only [needsFullYear, hyear, decide_eq_true_eq] at hbounds
    have hwritten := encode?_ofSeconds seconds
    simp only [hfull] at hwritten
    simp only [hyear, if_neg hinside, Int.toNat_natCast] at hwritten
    refine ⟨_, _, hwritten, by decide, Nat.le_add_right 13 2, fun encoded =>
      ⟨?_, (isStrict_written _ _ encoded).2⟩⟩
    rw [ofElement, if_pos rfl, ofContent_of_readYear hyear (readYear_short (by omega) (by omega)),
      ofSeconds, Bool.eq_false_iff.mpr hfull]

theorem read_written {identifier : UInt8} {content : Bytes} {seconds : Int}
    (hidentifier : identifier.toNat % 32 ≠ 31) (hlength : content.length ≤ 15)
    (hdate : ∀ encoded, ofElement ⟨identifier, content, encoded⟩ = some (ofSeconds seconds))
    (rest : Bytes) :
    read (Asn1.encode identifier content ++ rest) = some (ofSeconds seconds, rest) := by
  rw [read, Asn1.Element.read_encode hidentifier (hlength.trans_lt (by decide))]
  simp only [Option.bind_eq_bind, Option.bind_some, hdate, Option.pure_def]

/-- A date that could be written is read strictly if and only if it is not before 1970. -/
theorem readStrict_written {seconds : Int} {written : Bytes}
    (hwritten : (ofSeconds seconds).encode? = some written) (rest : Bytes) :
    readStrict (written ++ rest) = if 0 ≤ seconds then some (ofSeconds seconds, rest) else none := by
  obtain ⟨hfirst, hlast⟩ := year_of_encode? hwritten
  obtain ⟨identifier, content, hencoded, hidentifier, hlength, hdate⟩ :=
    exists_encode? hfirst hlast
  rw [hencoded] at hwritten
  cases hwritten
  obtain ⟨hread, hstrict⟩ := hdate (Asn1.encode identifier content)
  rw [readStrict, Asn1.Element.readStrict_encode hidentifier (hlength.trans_lt (by decide))]
  simp only [Option.bind_eq_bind, Option.bind_some, hread, hstrict, true_and, Option.pure_def]
  rfl

end X509.CertificateDate

namespace X509.Validity

open Asn1 (Element encodeSequence)

/-- The written form of a time that has one, which is read back. -/
theorem exists_written {first last : Int}
    (hfirst : 0 ≤ (Instant.ofSeconds first).date.year ∧ (Instant.ofSeconds first).date.year ≤ 9999)
    (hlast : 0 ≤ (Instant.ofSeconds last).date.year ∧ (Instant.ofSeconds last).date.year ≤ 9999) :
    ∃ content, (Validity.mk (.ofSeconds first) (.ofSeconds last)).encode? =
        some (Asn1.encode Asn1.sequence content) ∧
      ∀ rest, read (Asn1.encode Asn1.sequence content ++ rest) =
        some (⟨.ofSeconds first, .ofSeconds last⟩, rest) := by
  obtain ⟨beforeTag, before, hbefore, hbeforeTag, hbeforeLength, hbeforeDate⟩ :=
    CertificateDate.exists_encode? hfirst.1 hfirst.2
  obtain ⟨afterTag, after, hafter, hafterTag, hafterLength, hafterDate⟩ :=
    CertificateDate.exists_encode? hlast.1 hlast.2
  have hlength : [Asn1.encode beforeTag before, Asn1.encode afterTag after].flatten.length <
      2 ^ 64 := by
    simp only [List.flatten_cons, List.flatten_nil, List.length_append, List.length_nil,
      Asn1.length_encode_short (hbeforeLength.trans_lt (by decide)),
      Asn1.length_encode_short (hafterLength.trans_lt (by decide))]
    omega
  refine ⟨[Asn1.encode beforeTag before, Asn1.encode afterTag after].flatten, ?_, fun rest => ?_⟩
  · rw [encode?, hbefore, hafter]
    rfl
  · rw [read, Element.expect_encode (by decide) hlength]
    simp only [List.flatten_cons, Option.bind_eq_bind, Option.bind_some,
      CertificateDate.read_written hbeforeTag hbeforeLength fun encoded => (hbeforeDate encoded).1,
      CertificateDate.read_written hafterTag hafterLength fun encoded => (hafterDate encoded).1,
      Option.pure_def]

/-- Whatever time could be written is read back. -/
theorem read_encode? {first last : Int} {written : Bytes}
    (hwritten : (Validity.mk (.ofSeconds first) (.ofSeconds last)).encode? = some written)
    (rest : Bytes) :
    read (written ++ rest) = some (⟨.ofSeconds first, .ofSeconds last⟩, rest) := by
  have hparts := hwritten
  simp only [encode?, Option.bind_eq_bind, Option.bind_eq_some_iff] at hparts
  obtain ⟨before, hbefore, after, hafter, -⟩ := hparts
  obtain ⟨content, hencoded, hread⟩ :=
    exists_written (CertificateDate.year_of_encode? hbefore) (CertificateDate.year_of_encode? hafter)
  rw [hencoded] at hwritten
  cases hwritten
  exact hread rest

end X509.Validity

end CertAuthority
