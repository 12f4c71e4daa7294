import CertAuthority.Pem

/-!
# Blocks that are written and read again

The text of a block is read back to its contents.  The characters of the data are neither blank nor
dashes, so that the lines can be broken anywhere and the end of the block is found.
-/

namespace CertAuthority

namespace Base64

/-- A character that is neither blank nor a dash. -/
def Plain (c : Char) : Prop :=
  Text.isBlank c = false ∧ c ≠ '-'

instance (c : Char) : Decidable (Plain c) :=
  inferInstanceAs (Decidable (_ ∧ _))

theorem digitValue_digit {n : Nat} (hn : n < 64) : digitValue (digit n) = some n := by
  revert n
  decide

theorem digit_plain (n : Nat) : Plain (digit n) := by
  rcases Nat.lt_or_ge n 64 with hsmall | hlarge
  · revert n
    decide
  · have hlast : digit n = '/' := by
      simp only [digit]
      rw [if_neg (by omega), if_neg (by omega), if_neg (by omega), if_neg (by omega)]
    rw [hlast]
    decide

theorem encode_plain (bytes : Bytes) : ∀ c ∈ encode bytes, Plain c := by
  have hpadding : Plain '=' := by decide
  induction bytes using encode.induct with
  | case1 => exact List.forall_mem_nil _
  | case2 a => simp [encode, digit_plain, hpadding]
  | case3 a b => simp [encode, digit_plain, hpadding]
  | case4 a b c rest ih => simpa [encode, digit_plain] using ih

/-- A byte from two parts of it. -/
theorem ofNat_eq {b : UInt8} {n : Nat} (hn : n = b.toNat) : UInt8.ofNat n = b := by
  rw [hn, UInt8.ofNat_toNat]

section Groups

variable {a b c d : Char} {x y z w : Nat}

theorem decodePadded_one (hx : digitValue a = some x) (hy : digitValue b = some y)
    (hzero : y % 16 = 0) : decodePadded a b '=' '=' = some [UInt8.ofNat (x * 4 + y / 16)] := by
  simp only [decodePadded, hx, hy, hzero, ne_eq, not_true_eq_false, if_false, if_true,
    Option.bind_eq_bind, Option.bind_some, Option.pure_def]

theorem decodePadded_two (hx : digitValue a = some x) (hy : digitValue b = some y)
    (hz : digitValue c = some z) (hc : c ≠ '=') (hzero : z % 4 = 0) :
    decodePadded a b c '=' =
      some [UInt8.ofNat (x * 4 + y / 16), UInt8.ofNat (y % 16 * 16 + z / 4)] := by
  simp only [decodePadded, hx, hy, hz, hc, hzero, ne_eq, not_true_eq_false, if_false,
    Option.bind_eq_bind, Option.bind_some, Option.pure_def]

theorem decode_last (hx : digitValue a = some x) (hy : digitValue b = some y)
    (hz : digitValue c = some z) (hw : digitValue d = some w) :
    decode [a, b, c, d] = some [UInt8.ofNat (x * 4 + y / 16), UInt8.ofNat (y % 16 * 16 + z / 4),
      UInt8.ofNat (z % 4 * 64 + w)] := by
  simp only [decode, hx, hy, hz, hw]

theorem decode_more (hx : digitValue a = some x) (hy : digitValue b = some y)
    (hz : digitValue c = some z) (hw : digitValue d = some w) {first : Char}
    {others : List Char} {tail : Bytes} (htail : decode (first :: others) = some tail) :
    decode (a :: b :: c :: d :: first :: others) =
      some (UInt8.ofNat (x * 4 + y / 16) :: UInt8.ofNat (y % 16 * 16 + z / 4) ::
        UInt8.ofNat (z % 4 * 64 + w) :: tail) := by
  simp only [decode, hx, hy, hz, hw, htail, Option.bind_eq_bind, Option.bind_some,
    Option.pure_def]

end Groups

/-- What is encoded is decoded again. -/
theorem decode_encode (bytes : Bytes) : decode (encode bytes) = some bytes := by
  have hpadding : digitValue '=' = none := by decide
  induction bytes using encode.induct with
  | case1 => rfl
  | case2 a =>
      have ha := a.toNat_lt
      have hx := digitValue_digit (n := a.toNat * 16 / 64) (by omega)
      have hy := digitValue_digit (n := a.toNat * 16 % 64) (by omega)
      have hzero : a.toNat * 16 % 64 % 16 = 0 := by omega
      have hbyte : UInt8.ofNat (a.toNat * 16 / 64 * 4 + a.toNat * 16 % 64 / 16) = a :=
        ofNat_eq (by omega)
      simp only [encode, decode, hx, hy, hpadding]
      rw [decodePadded_one hx hy hzero, hbyte]
  | case3 a b =>
      have ha := a.toNat_lt
      have hb := b.toNat_lt
      generalize hn : (a.toNat * 256 + b.toNat) * 4 = n
      have hx := digitValue_digit (n := n / 4096) (by omega)
      have hy := digitValue_digit (n := n / 64 % 64) (by omega)
      have hz := digitValue_digit (n := n % 64) (by omega)
      have hzero : n % 64 % 4 = 0 := by omega
      have hdigit : digit (n % 64) ≠ '=' := by
        intro heq
        rw [heq, hpadding] at hz
        cases hz
      have hfirst : UInt8.ofNat (n / 4096 * 4 + n / 64 % 64 / 16) = a := ofNat_eq (by omega)
      have hsecond : UInt8.ofNat (n / 64 % 64 % 16 * 16 + n % 64 / 4) = b := ofNat_eq (by omega)
      simp only [encode, hn, decode, hx, hy, hz, hpadding]
      rw [decodePadded_two hx hy hz hdigit hzero, hfirst, hsecond]
  | case4 a b c rest ih =>
      have ha := a.toNat_lt
      have hb := b.toNat_lt
      have hc := c.toNat_lt
      generalize hn : (a.toNat * 256 + b.toNat) * 256 + c.toNat = n
      have hx := digitValue_digit (n := n / 262144) (by omega)
      have hy := digitValue_digit (n := n / 4096 % 64) (by omega)
      have hz := digitValue_digit (n := n / 64 % 64) (by omega)
      have hw := digitValue_digit (n := n % 64) (by omega)
      have hfirst : UInt8.ofNat (n / 262144 * 4 + n / 4096 % 64 / 16) = a := ofNat_eq (by omega)
      have hsecond : UInt8.ofNat (n / 4096 % 64 % 16 * 16 + n / 64 % 64 / 4) = b :=
        ofNat_eq (by omega)
      have hthird : UInt8.ofNat (n / 64 % 64 % 4 * 64 + n % 64) = c := ofNat_eq (by omega)
      rw [encode, hn]
      cases htail : encode rest with
      | nil =>
          rw [htail] at ih
          cases ih
          rw [decode_last hx hy hz hw, hfirst, hsecond, hthird]
      | cons first others =>
          rw [htail] at ih
          rw [decode_more hx hy hz hw ih, hfirst, hsecond, hthird]

end Base64

namespace Pem

open Base64 (Plain)

section Scanning

variable {marker text rest : List Char}

/-- Whatever lacks the first character of a marker is passed over. -/
theorem scan_passing {p : Char} (hmarker : marker.head? = some p)
    (htext : p ∉ text) (seen rest : List Char) :
    scan marker marker seen (text ++ rest) = scan marker marker (text.reverse ++ seen) rest := by
  obtain ⟨more, rfl⟩ := List.head?_eq_some_iff.mp hmarker
  induction text generalizing seen with
  | nil => rfl
  | cons c text ih =>
      have hother : c ≠ p := fun h => htext (h ▸ List.mem_cons_self)
      rw [List.cons_append, scan, if_neg hother, ih (fun h => htext (List.mem_cons_of_mem _ h)),
        List.reverse_cons, List.append_assoc]
      rfl

theorem scan_marker (marker : List Char) {pending : List Char} (hpending : pending ≠ [])
    (seen rest : List Char) :
    scan marker pending seen (pending ++ rest) =
      some (((pending.reverse ++ seen).drop marker.length).reverse, rest) := by
  induction pending generalizing seen with
  | nil => exact absurd rfl hpending
  | cons p pending ih =>
      rw [List.cons_append, scan, if_pos rfl]
      cases pending with
      | nil => rfl
      | cons q pending =>
          rw [if_neg (by simp), ih (List.cons_ne_nil _ _), List.reverse_cons (a := p),
            List.append_assoc]
          rfl

/-- A marker is found behind what lacks its first character. -/
theorem splitAt_marker {p : Char} (hmarker : marker.head? = some p)
    (htext : p ∉ text) (rest : List Char) :
    splitAt marker (text ++ (marker ++ rest)) = some (text, rest) := by
  have hnonempty : marker ≠ [] := by
    rintro rfl
    cases hmarker
  have hlength : marker.length = marker.reverse.length := List.length_reverse.symm
  rw [splitAt, scan_passing hmarker htext, scan_marker marker hnonempty, List.append_nil,
    hlength, List.drop_left, List.reverse_reverse]

theorem splitFirst_eq_none {p : Char} {more : List Char} (htext : p ∉ text) :
    splitFirst (p :: more) text = none := by
  induction text with
  | nil => rfl
  | cons c text ih =>
      have hother : p ≠ c := fun h => htext (h ▸ List.mem_cons_self)
      rw [splitFirst, ih fun h => htext (List.mem_cons_of_mem _ h)]
      simp [hother]

/-- A line does not begin a separator of two line feeds if it is not followed by an empty one. -/
theorem splitFirst_line {line : List Char} (hline : '\n' ∉ line)
    (hhead : rest.head? ≠ some '\n') (hrest : splitFirst ['\n', '\n'] rest = none) :
    splitFirst ['\n', '\n'] (line ++ '\n' :: rest) = none := by
  induction line with
  | nil =>
      cases rest with
      | nil => rfl
      | cons c rest =>
          have hother : '\n' ≠ c := fun h => hhead (h ▸ rfl)
          rw [List.nil_append, splitFirst, hrest]
          simp [hother]
  | cons c line ih =>
      have hother : '\n' ≠ c := fun h => hline (h ▸ List.mem_cons_self)
      rw [List.cons_append, splitFirst, ih fun h => hline (List.mem_cons_of_mem _ h)]
      simp [hother]

end Scanning

section Lines

variable {data : List Char}

/-- The lines of the data. -/
abbrev lined (fuel : Nat) (data : List Char) : List Char :=
  wrapped ['\n'] fuel data

theorem mem_lined {fuel : Nat} {c : Char} (hc : c ∈ lined fuel data) : c ∈ data ∨ c = '\n' := by
  induction fuel generalizing data with
  | zero => cases hc
  | succ fuel ih =>
      simp only [lined, wrapped] at hc
      split at hc
      · cases hc
      · rcases List.mem_append.mp hc with hline | hrest
        · rcases List.mem_append.mp hline with htaken | hend
          · exact .inl (List.mem_of_mem_take htaken)
          · exact .inr (List.mem_singleton.mp hend)
        · exact (ih hrest).imp_left List.mem_of_mem_drop

theorem filter_lined (hplain : ∀ c ∈ data, Plain c) {fuel : Nat} (hfuel : data.length ≤ fuel) :
    (lined fuel data).filter (fun c => !Text.isBlank c) = data := by
  induction fuel generalizing data with
  | zero => rw [List.length_eq_zero_iff.mp (Nat.le_zero.mp hfuel)]; rfl
  | succ fuel ih =>
      simp only [lined, wrapped]
      split
      · next hempty => rw [List.isEmpty_iff.mp hempty]; rfl
      · have htaken : (data.take 64).filter (fun c => !Text.isBlank c) = data.take 64 := by
          rw [List.filter_eq_self]
          intro c hc
          simp [(hplain c (List.mem_of_mem_take hc)).1]
        have hrest := ih (fun c hc => hplain c (List.mem_of_mem_drop hc))
          (show (data.drop 64).length ≤ fuel by rw [List.length_drop]; omega)
        have hend : ['\n'].filter (fun c => !Text.isBlank c) = [] := rfl
        rw [List.filter_append, List.filter_append, htaken, hend, List.append_nil]
        rw [hrest, List.take_append_drop]

theorem head?_lined_ne (hplain : ∀ c ∈ data, Plain c) (fuel : Nat) :
    (lined fuel data).head? ≠ some '\n' := by
  cases fuel with
  | zero => exact nofun
  | succ fuel =>
      cases data with
      | nil => exact nofun
      | cons c data =>
          rintro ⟨rfl⟩
          cases (hplain _ List.mem_cons_self).1

/-- There is no empty line among the lines of the data. -/
theorem splitFirst_lined (hplain : ∀ c ∈ data, Plain c) (fuel : Nat) :
    splitFirst ['\n', '\n'] (lined fuel data) = none := by
  induction fuel generalizing data with
  | zero => rfl
  | succ fuel ih =>
      simp only [lined, wrapped]
      split
      · rfl
      · have hdrop : ∀ c ∈ data.drop 64, Plain c := fun c hc => hplain c (List.mem_of_mem_drop hc)
        have hline : '\n' ∉ data.take 64 := by
          intro hend
          cases (hplain _ (List.mem_of_mem_take hend)).1
        rw [List.append_assoc]
        exact splitFirst_line hline (head?_lined_ne hdrop fuel) (ih hdrop)

/-- The lines of the data are a body without headers. -/
theorem splitHeaders_lined (hplain : ∀ c ∈ data, Plain c) (fuel : Nat) :
    splitHeaders (lined fuel data) = ([], lined fuel data) := by
  have hreturn : '\r' ∉ lined fuel data := by
    intro hmem
    rcases mem_lined hmem with hdata | hend
    · cases (hplain _ hdata).1
    · cases hend
  rw [splitHeaders, splitFirst_lined hplain, splitFirst_eq_none hreturn]

end Lines

theorem toList_encodeUnix (tag : String) (contents : Bytes) :
    (encodeUnix tag contents).toList =
      beginMarker ++ (tag.toList ++ (dashes ++ ('\n' ::
        (lined (Base64.encode contents).length (Base64.encode contents) ++
          (endMarker ++ (tag.toList ++ (dashes ++ ['\n']))))))) := by
  simp [encodeUnix, encodeWith, lined]

theorem dropWhile_lined {data : List Char} (hplain : ∀ c ∈ data, Plain c) (fuel : Nat)
    (rest : List Char) :
    ('\n' :: (lined fuel data ++ (endMarker ++ rest))).dropWhile isPadding =
      lined fuel data ++ (endMarker ++ rest) := by
  have hend : (endMarker ++ rest).dropWhile isPadding = endMarker ++ rest := rfl
  rw [List.dropWhile_cons_of_pos rfl]
  cases fuel with
  | zero => exact hend
  | succ fuel =>
      cases data with
      | nil => exact hend
      | cons c data =>
          have hc : isPadding c = false := by
            have hblank := (hplain c List.mem_cons_self).1
            simp only [isPadding, Bool.or_eq_false_iff, decide_eq_false_iff_not]
            refine ⟨⟨⟨?_, ?_⟩, ?_⟩, ?_⟩ <;> (rintro rfl; cases hblank)
          exact List.dropWhile_cons_of_neg (by simp [hc])

/-- What is written as a block is read back. -/
theorem parse_encodeUnix {tag : String} (hnonempty : tag ≠ "") (htag : '-' ∉ tag.toList)
    (contents : Bytes) : parse (encodeUnix tag contents) = some ⟨tag, contents⟩ := by
  have hplain := Base64.encode_plain contents
  have hdecoded := Base64.decode_encode contents
  have hbegin : beginMarker.head? = some '-' := rfl
  have hdashes : dashes.head? = some '-' := rfl
  have hend : endMarker.head? = some '-' := rfl
  rw [parse, toList_encodeUnix, ← List.nil_append beginMarker, List.append_assoc]
  generalize Base64.encode contents = data at hplain hdecoded
  have hlines : '-' ∉ lined data.length data := by
    intro hmem
    rcases mem_lined hmem with hmem | hend
    · exact (hplain _ hmem).2 rfl
    · cases hend
  have hheaders := splitHeaders_lined hplain data.length
  have hfiltered := filter_lined hplain (Nat.le_refl data.length)
  have hempty : tag.toList.isEmpty = false := by
    rw [List.isEmpty_eq_false_iff]
    exact fun h => hnonempty (String.toList_eq_nil_iff.mp h)
  rw [parseChars, splitAt_marker hbegin List.not_mem_nil]
  simp only [Option.bind_eq_bind, Option.bind_some]
  rw [splitAt_marker hdashes htag]
  simp only [Option.bind_some, dropWhile_lined hplain]
  rw [splitAt_marker hend hlines]
  simp only [Option.bind_some]
  rw [splitAt_marker hdashes htag]
  simp only [Option.bind_some, hheaders, hfiltered, hdecoded, hempty]
  simp [lines, lines.go]

theorem contentsOf_encodeUnix {tag : String} (hnonempty : tag ≠ "") (htag : '-' ∉ tag.toList)
    (contents : Bytes) : contentsOf (encodeUnix tag contents) tag = .ok contents := by
  have hblank : Text.isAllBlank (encodeUnix tag contents) = false := by
    rw [Text.isAllBlank, toList_encodeUnix, List.all_eq_false]
    exact ⟨'-', List.mem_append_left _ List.mem_cons_self, by decide⟩
  rw [contentsOf, hblank, parse_encodeUnix hnonempty htag]
  simp

end Pem

end CertAuthority
