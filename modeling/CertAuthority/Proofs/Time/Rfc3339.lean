import CertAuthority.Proofs.Decimal.Digits
import CertAuthority.Proofs.Time.Instant
import CertAuthority.Time.Rfc3339

/-!
# Timestamps as text and back

Every instant is read back from its text, and what is read from a text is an instant.
-/

namespace CertAuthority.Time

section Padded

variable {width n : Nat}

theorem isDigit_padded : ∀ c ∈ padded width n, isDigit c = true := by
  have hdigit : ∀ d < 10, isDigit d.digitChar = true := by decide
  intro c hc
  rcases List.mem_append.mp hc with hzero | hdigits
  · rw [List.eq_of_mem_replicate hzero]
    decide
  · exact Digits.forall_mem_toDigits (P := fun c => isDigit c = true) (by decide) hdigit n c hdigits

theorem length_padded (hwidth : 0 < width) (hn : n < 10 ^ width) :
    (padded width n).length = width := by
  have hlength := (Nat.length_toDigits_le_iff (b := 10) (by decide) hwidth).mpr hn
  simp only [padded, List.length_append, List.length_replicate]
  omega

theorem padded_ne_nil : padded width n ≠ [] := by
  simp [padded, Nat.toDigits_ne_nil]

theorem digitsValue_padded : digitsValue (padded width n) = n := by
  have hvalue : ∀ d < 10, d.digitChar.toNat - 48 = d := by decide
  have hzeros (k : Nat) :
      (List.replicate k '0').foldl (fun n c => n * 10 + (c.toNat - 48)) 0 = 0 := by
    induction k with
    | zero => rfl
    | succ k ih => exact ih
  rw [digitsValue, padded, List.foldl_append, hzeros]
  exact Digits.foldl_toDigits (by decide) hvalue n

end Padded

/-- That what follows is not a digit. -/
def Ends (rest : List Char) : Prop :=
  ∀ c, rest.head? = some c → isDigit c = false

section Reading

variable {ds rest : List Char} {width n : Nat}

theorem takeWhile_append (hdigits : ∀ c ∈ ds, isDigit c = true) (hends : Ends rest) :
    (ds ++ rest).takeWhile isDigit = ds := by
  rw [List.takeWhile_append_of_pos hdigits]
  cases rest with
  | nil => simp
  | cons c rest => simp [hends c rfl]

theorem isBlank_of_isDigit {c : Char} (hc : isDigit c = true) : Text.isBlank c = false := by
  simp only [isDigit, Bool.and_eq_true, decide_eq_true_eq] at hc
  have hlow : 48 ≤ c.toNat := hc.1
  have hhigh : c.toNat ≤ 57 := hc.2
  simp only [Text.isBlank, decide_eq_false_iff_not]
  omega

theorem exists_eq_cons (hdigits : ∀ c ∈ ds, isDigit c = true) (hne : ds ≠ []) :
    ∃ d ds', ds = d :: ds' ∧ isDigit d = true := by
  cases ds with
  | nil => exact absurd rfl hne
  | cons d ds => exact ⟨d, ds, rfl, hdigits d List.mem_cons_self⟩

theorem trimStart_append (hdigits : ∀ c ∈ ds, isDigit c = true) (hne : ds ≠ []) :
    Text.trimStart (ds ++ rest) = ds ++ rest := by
  obtain ⟨d, ds, rfl, hd⟩ := exists_eq_cons hdigits hne
  simp [Text.trimStart, isBlank_of_isDigit hd]

/-- All of the digits are taken if they are as many as may be taken, or nothing goes on after
them. -/
theorem number_append (hdigits : ∀ c ∈ ds, isDigit c = true) (hne : ds ≠ [])
    (hwidth : ds.length = width ∨ ds.length ≤ width ∧ Ends rest) :
    number width (ds ++ rest) = some (digitsValue ds, rest) := by
  have htaken : ((ds ++ rest).take width).takeWhile isDigit = ds := by
    rcases hwidth with rfl | ⟨hle, hends⟩
    · rw [List.take_left]
      have hends : Ends [] := nofun
      simpa using takeWhile_append hdigits hends
    · rw [List.take_append, List.take_of_length_le hle]
      apply takeWhile_append hdigits
      intro c hc
      rw [List.head?_take] at hc
      split at hc
      · cases hc
      · exact hends c hc
  rw [number, htaken]
  simp [hne]

theorem field_padded {lo hi : Nat} (hlo : lo ≤ n) (hhi : n ≤ hi) (hbound : hi < 100) :
    field lo hi (padded 2 n ++ rest) = some (n, rest) := by
  have hlength : (padded 2 n).length = 2 := length_padded (by decide) (by omega)
  rw [field, trimStart_append isDigit_padded padded_ne_nil,
    number_append isDigit_padded padded_ne_nil (.inl hlength), digitsValue_padded]
  exact if_pos ⟨hlo, hhi⟩

theorem separator_cons {c : Char} (hc : Text.isBlank c = false) :
    separator c (c :: rest) = some rest := by
  simp [separator, Text.trimStart, hc]

/-- A year is read back; a separator follows it. -/
theorem year_yearDigits {y : Int} (hlow : -1000000 < y) (hhigh : y < 1000000) :
    year (yearDigits y ++ '-' :: rest) = some (y, '-' :: rest) := by
  have hends : Ends ('-' :: rest) := by
    rintro c ⟨⟩
    decide
  have hlong : longNumber (padded 4 y.natAbs ++ '-' :: rest) = some (y.natAbs, '-' :: rest) := by
    rw [longNumber, number_append isDigit_padded padded_ne_nil (.inr ⟨by simp, hends⟩),
      digitsValue_padded]
    exact if_pos (by rw [show Nat.pow 2 63 = 2 ^ 63 from rfl]; omega)
  unfold yearDigits
  split
  · next hnegative =>
      have hskip : Text.trimStart ('-' :: (padded 4 y.natAbs ++ '-' :: rest)) =
          '-' :: (padded 4 y.natAbs ++ '-' :: rest) := rfl
      simp only [List.cons_append, year, hskip, hlong, Option.map_some]
      rw [Int.ofNat_natAbs_of_nonpos (by omega), Int.neg_neg]
  · split
    · next hlater =>
        have hskip : Text.trimStart ('+' :: (padded 4 y.natAbs ++ '-' :: rest)) =
            '+' :: (padded 4 y.natAbs ++ '-' :: rest) := rfl
        simp only [List.cons_append, year, hskip, hlong, Option.map_some]
        rw [Int.natAbs_of_nonneg (by omega)]
    · next hnonnegative hfour =>
        have hlength : (padded 4 y.natAbs).length = 4 := length_padded (by decide) (by omega)
        have hnumber : number 4 (padded 4 y.natAbs ++ '-' :: rest) = some (y.natAbs, '-' :: rest) := by
          rw [number_append isDigit_padded padded_ne_nil (.inl hlength), digitsValue_padded]
        have hdigits : ∀ c ∈ padded 4 y.natAbs, isDigit c = true := isDigit_padded
        have hskip : Text.trimStart (padded 4 y.natAbs ++ '-' :: rest) =
            padded 4 y.natAbs ++ '-' :: rest := trimStart_append hdigits padded_ne_nil
        obtain ⟨d, ds, hds, hd⟩ := exists_eq_cons hdigits padded_ne_nil
        rw [hds] at hnumber hskip ⊢
        unfold year
        rw [hskip]
        split
        · next heq => cases heq; cases hd
        · next heq => cases heq; cases hd
        · rw [hnumber, Option.map_some]
          simp only [Int.natAbs_of_nonneg (show 0 ≤ y by omega)]

/-- A fraction of some digits is read back; the last of nine digits are left out. -/
theorem fraction_padded {digits : Nat} (hdigits : 0 < digits) (hnine : digits ≤ 9)
    (hn : n < 10 ^ digits) :
    fraction ('.' :: (padded digits n ++ 'Z' :: rest)) = some (n * 10 ^ (9 - digits), 'Z' :: rest) := by
  have hlength : (padded digits n).length = digits := length_padded hdigits hn
  have htaken : (padded digits n ++ 'Z' :: rest).takeWhile isDigit = padded digits n := by
    refine takeWhile_append isDigit_padded ?_
    rintro c ⟨⟩
    decide
  have hkept : (padded digits n).take 9 = padded digits n :=
    List.take_of_length_le (by rw [hlength]; exact hnine)
  have hdropped : (padded digits n ++ 'Z' :: rest).drop (padded digits n).length = 'Z' :: rest :=
    List.drop_left
  have hne : ¬ (padded digits n).isEmpty = true := by simp [padded_ne_nil]
  simp only [fraction, htaken, hkept, if_neg hne, hdropped, digitsValue_padded]
  rw [hlength]
  rfl

theorem fraction_fractionText (hn : n < 1000000000) :
    fraction (fractionText n ++ 'Z' :: rest) = some (n, 'Z' :: rest) := by
  unfold fractionText
  split
  · next hzero =>
      subst hzero
      rfl
  · split
    · next hmillis =>
        have hread : fraction ('.' :: (padded 3 (n / 1000000) ++ 'Z' :: rest)) =
            some (n / 1000000 * 10 ^ (9 - 3), 'Z' :: rest) :=
          fraction_padded (by decide) (by decide) (by omega)
        rw [List.cons_append, hread]
        simp
        omega
    · split
      · next hmicros =>
          have hread : fraction ('.' :: (padded 6 (n / 1000) ++ 'Z' :: rest)) =
              some (n / 1000 * 10 ^ (9 - 6), 'Z' :: rest) :=
            fraction_padded (by decide) (by decide) (by omega)
          rw [List.cons_append, hread]
          simp
          omega
      · exact (fraction_padded (by decide) (by decide) hn).trans (by simp)

end Reading

/-- Only a leap second is the sixtieth of its minute. -/
theorem second_cases {t : Instant} (ht : t.IsValid) :
    (t.second = t.secondOfDay % 60 ∧ t.fraction = t.nanos) ∨
      (t.second = 60 ∧ t.secondOfDay % 60 = 59 ∧ t.nanos = t.fraction + Instant.nanosPerSecond) := by
  have hnanos := ht.nanos
  have hminute : (t.secondOfDay % 60 : Nat) = t.seconds % 60 := by
    simp only [Instant.secondOfDay, Instant.secondsPerDay]
    omega
  rcases Nat.lt_or_ge t.nanos Instant.nanosPerSecond with hplain | hleap
  · have hnot : ¬ Instant.nanosPerSecond ≤ t.nanos := Nat.not_le.mpr hplain
    exact .inl ⟨by rw [Instant.second, if_neg hnot, Nat.add_zero],
      by rw [Instant.fraction, if_neg hnot]⟩
  · simp only [Instant.second, Instant.fraction, if_pos hleap]
    omega

/-- The calendar puts an instant together again from its date and its time of day. -/
theorem assemble_date {t : Instant} (ht : t.IsValid) :
    assemble t.date t.hour t.minute t.second t.fraction 0 = some t := by
  have hyears := (Instant.inRange_iff t).mp ht.inRange
  have hvalid : t.date.isValid = true := Date.isValid_ofDays _
  have hdays : t.date.toDays = t.seconds / Instant.secondsPerDay := Date.toDays_ofDays _
  obtain ⟨hclock, -, -⟩ := t.secondOfDay_eq
  have hday : (t.secondOfDay : Int) = t.seconds % Instant.secondsPerDay := by
    simp only [Instant.secondOfDay, Instant.secondsPerDay]
    omega
  have hparts : min t.second 59 = t.secondOfDay % 60 ∧
      t.fraction + (if t.second = 60 then Instant.nanosPerSecond else 0) = t.nanos := by
    rcases second_cases ht with ⟨hsecond, hfraction⟩ | ⟨hsecond, hlast, hnanos⟩
    · rw [hsecond, if_neg (by omega)]
      exact ⟨by omega, hfraction⟩
    · rw [hsecond, hlast, if_pos rfl]
      exact ⟨rfl, hnanos.symm⟩
  have hseconds : t.date.toDays * Instant.secondsPerDay +
      (t.hour * 3600 + t.minute * 60 + t.secondOfDay % 60 : Nat) - 0 = t.seconds := by
    rw [hdays, ← hclock, hday, Int.sub_zero]
    exact Int.ediv_mul_add_emod t.seconds Instant.secondsPerDay
  simp only [assemble]
  rw [hparts.1, hparts.2, hseconds]
  exact if_pos ⟨hvalid, hyears.1, hyears.2, ht.inRange⟩

/-- An instant is read back from its text. -/
theorem parse_render {t : Instant} (ht : t.IsValid) : parse (render t) = some t := by
  have hyears := (Instant.inRange_iff t).mp ht.inRange
  simp only [Instant.minYear, Instant.maxYear] at hyears
  have hvalid : t.date.isValid = true := Date.isValid_ofDays _
  have hbounds := Date.bounds_of_isValid hvalid
  simp only [Date.isValid, decide_eq_true_eq] at hvalid
  obtain ⟨hclock, hhour, hminute⟩ := t.secondOfDay_eq
  have hsecond : t.second ≤ 60 := by
    unfold Instant.second
    split <;> omega
  have hfraction : t.fraction < 1000000000 := by
    have hnanos := ht.nanos
    simp only [Instant.nanosPerSecond] at hnanos
    unfold Instant.fraction Instant.nanosPerSecond
    split <;> omega
  have htext : (render t).toList = yearDigits t.date.year ++ '-' :: (padded 2 t.date.month ++ '-' ::
      (padded 2 t.date.day ++ 'T' :: (padded 2 t.hour ++ ':' :: (padded 2 t.minute ++ ':' ::
        (padded 2 t.second ++ (fractionText t.fraction ++ ['Z'])))))) := by
    simp [render, renderChars, dateText, clockText]
  have hdash : Text.isBlank '-' = false := by decide
  have hcolon : Text.isBlank ':' = false := by decide
  have hend : (Text.trimStart []).isEmpty = true := rfl
  have hzone : zone (Text.trimStart ['Z']) = some (0, []) := by decide
  rw [parse, htext]
  unfold parseChars
  refine Option.bind_eq_some_iff.mpr ⟨_, year_yearDigits (by omega) (by omega), ?_⟩
  refine Option.bind_eq_some_iff.mpr ⟨_, separator_cons hdash, ?_⟩
  refine Option.bind_eq_some_iff.mpr ⟨_, field_padded hvalid.1 hvalid.2.1 (by decide), ?_⟩
  refine Option.bind_eq_some_iff.mpr ⟨_, separator_cons hdash, ?_⟩
  refine Option.bind_eq_some_iff.mpr ⟨_, field_padded hvalid.2.2.1 hbounds.2 (by decide), ?_⟩
  refine Option.bind_eq_some_iff.mpr ⟨_, rfl, ?_⟩
  refine Option.bind_eq_some_iff.mpr ⟨_, field_padded (Nat.zero_le _) hhour (by decide), ?_⟩
  refine Option.bind_eq_some_iff.mpr ⟨_, separator_cons hcolon, ?_⟩
  refine Option.bind_eq_some_iff.mpr ⟨_, field_padded (Nat.zero_le _) hminute (by decide), ?_⟩
  refine Option.bind_eq_some_iff.mpr ⟨_, separator_cons hcolon, ?_⟩
  refine Option.bind_eq_some_iff.mpr ⟨_, field_padded (Nat.zero_le _) hsecond (by decide), ?_⟩
  refine Option.bind_eq_some_iff.mpr ⟨_, fraction_fractionText hfraction, ?_⟩
  refine Option.bind_eq_some_iff.mpr ⟨_, hzone, ?_⟩
  exact (if_pos hend).trans (assemble_date ht)

section Sound

variable {s rest : List Char} {n lo hi : Nat} {offset : Int} {t : Instant}

theorem le_of_field (hread : field lo hi s = some (n, rest)) : n ≤ hi := by
  unfold field at hread
  split at hread
  · split at hread
    · next hbounds =>
        cases hread
        exact hbounds.2
    · cases hread
  · cases hread

theorem digitsValue_lt {ds : List Char} (hdigits : ∀ c ∈ ds, isDigit c = true) :
    digitsValue ds < 10 ^ ds.length := by
  have hfold (m k : Nat) (hm : m < 10 ^ k) :
      ds.foldl (fun n c => n * 10 + (c.toNat - 48)) m < 10 ^ (k + ds.length) := by
    induction ds generalizing m k with
    | nil => exact hm
    | cons d ds ih =>
        have hd := hdigits d List.mem_cons_self
        simp only [isDigit, Bool.and_eq_true, decide_eq_true_eq] at hd
        have hhigh : d.toNat ≤ 57 := hd.2
        rw [List.foldl_cons, List.length_cons, Nat.add_comm ds.length, ← Nat.add_assoc]
        refine ih (fun c hc => hdigits c (List.mem_cons_of_mem _ hc)) _ _ ?_
        rw [Nat.pow_succ]
        omega
  have hall := hfold 0 0 (by decide)
  rwa [Nat.zero_add] at hall

theorem lt_of_fraction (hread : fraction s = some (n, rest)) : n < 1000000000 := by
  unfold fraction at hread
  split at hread
  · next tail =>
      dsimp only at hread
      split at hread
      · cases hread
      · cases hread
        have hdigits : ∀ c ∈ (tail.takeWhile isDigit).take 9, isDigit c = true := fun c hc =>
          List.all_eq_true.mp List.all_takeWhile c (List.mem_of_mem_take hc)
        have hlength : ((tail.takeWhile isDigit).take 9).length ≤ 9 := List.length_take_le _ _
        have hvalue := digitsValue_lt hdigits
        generalize (tail.takeWhile isDigit).take 9 = kept at hlength hvalue ⊢
        have hpower : 10 ^ kept.length * 10 ^ (9 - kept.length) = 1000000000 := by
          rw [← Nat.pow_add, Nat.add_sub_cancel' hlength]
        rw [show Nat.pow 10 (9 - kept.length) = 10 ^ (9 - kept.length) from rfl, ← hpower]
        exact Nat.mul_lt_mul_of_pos_right hvalue (Nat.pow_pos (by decide))
  · cases hread
    decide

theorem mod_of_offset {sign : Int} {hours minutes : Nat} (hsign : sign = 1 ∨ sign = -1)
    (hread : (do
      if 59 < minutes then none
      let offset : Int := hours * 3600 + minutes * 60
      if 86400 ≤ offset then none
      return (sign * offset, s)) = some (offset, rest)) : offset % 60 = 0 := by
  dsimp only at hread
  split at hread
  · cases hread
  · split at hread
    · cases hread
    · cases hread
      rcases hsign with rfl | rfl <;> omega

/-- Offsets are whole minutes. -/
theorem mod_of_zone (hread : zone s = some (offset, rest)) : offset % 60 = 0 := by
  unfold zone at hread
  split at hread
  · cases hread
  split at hread
  · cases hread
    rfl
  split at hread
  · cases hread
    rfl
  -- The sign is plus or minus.
  split at hread
  · obtain ⟨sign, hsign, hread⟩ := Option.bind_eq_some_iff.mp hread
    cases hsign
    obtain ⟨⟨hours, _⟩, -, hread⟩ := Option.bind_eq_some_iff.mp hread
    obtain ⟨⟨minutes, _⟩, -, hread⟩ := Option.bind_eq_some_iff.mp hread
    exact mod_of_offset (.inl rfl) hread
  · split at hread
    · obtain ⟨sign, hsign, hread⟩ := Option.bind_eq_some_iff.mp hread
      cases hsign
      obtain ⟨⟨hours, _⟩, -, hread⟩ := Option.bind_eq_some_iff.mp hread
      obtain ⟨⟨minutes, _⟩, -, hread⟩ := Option.bind_eq_some_iff.mp hread
      exact mod_of_offset (.inr rfl) hread
    · cases hread

/-- A second past the last one of a minute, at an offset of whole minutes, is a leap second. -/
theorem isValid_of_assemble {d : Date} {hour minute second nanos : Nat} (hsecond : second ≤ 60)
    (hnanos : nanos < 1000000000) (hoffset : offset % 60 = 0)
    (hread : assemble d hour minute second nanos offset = some t) : t.IsValid := by
  obtain ⟨hcalendar, hsome⟩ := Option.ite_none_right_eq_some.mp hread
  cases hsome
  refine ⟨hcalendar.2.2.2, ?_⟩
  simp only [Instant.nanosPerSecond, Instant.secondsPerDay]
  split
  · next hleap =>
      subst hleap
      omega
  · omega

/-- What is read from a text is an instant. -/
theorem isValid_of_parse {text : String} (hread : parse text = some t) : t.IsValid := by
  unfold parse parseChars at hread
  obtain ⟨⟨y, _⟩, -, hread⟩ := Option.bind_eq_some_iff.mp hread
  obtain ⟨_, -, hread⟩ := Option.bind_eq_some_iff.mp hread
  obtain ⟨⟨month, _⟩, -, hread⟩ := Option.bind_eq_some_iff.mp hread
  obtain ⟨_, -, hread⟩ := Option.bind_eq_some_iff.mp hread
  obtain ⟨⟨day, _⟩, -, hread⟩ := Option.bind_eq_some_iff.mp hread
  dsimp only at hread
  -- A letter or a blank stands between the date and the time.
  split at hread
  case h_4 => cases hread
  all_goals
    obtain ⟨_, -, hread⟩ := Option.bind_eq_some_iff.mp hread
    obtain ⟨⟨hour, _⟩, -, hread⟩ := Option.bind_eq_some_iff.mp hread
    obtain ⟨_, -, hread⟩ := Option.bind_eq_some_iff.mp hread
    obtain ⟨⟨minute, _⟩, -, hread⟩ := Option.bind_eq_some_iff.mp hread
    obtain ⟨_, -, hread⟩ := Option.bind_eq_some_iff.mp hread
    obtain ⟨⟨second, _⟩, hsecond, hread⟩ := Option.bind_eq_some_iff.mp hread
    obtain ⟨⟨nanos, _⟩, hnanos, hread⟩ := Option.bind_eq_some_iff.mp hread
    obtain ⟨⟨offset, _⟩, hoffset, hread⟩ := Option.bind_eq_some_iff.mp hread
    dsimp only at hread
    split at hread
    · exact isValid_of_assemble (le_of_field hsecond) (lt_of_fraction hnanos) (mod_of_zone hoffset)
        hread
    · cases hread

end Sound

end CertAuthority.Time
