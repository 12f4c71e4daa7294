import CertAuthority.Asn1.Writer
import Mathlib.Tactic.Ring

/-!
# Reading back what was written

An element of at most 64 bits of length is read back as it was written, with what follows it.  A
longer one cannot be read at all, so that whatever is read was of a good length.  Where lengths are
read strictly, the bound is 16 bits.
-/

namespace CertAuthority

namespace Bytes

theorem foldl_toNat (bytes : Bytes) (high : Nat) :
    bytes.foldl (fun n b => n * 256 + b.toNat) high = high * 256 ^ bytes.length + toNat bytes := by
  induction bytes generalizing high with
  | nil => simp [toNat]
  | cons b bytes ih =>
      simp only [toNat, List.foldl_cons, List.length_cons] at ih ⊢
      rw [ih, ih (0 * 256 + b.toNat)]
      ring

theorem toNat_cons (b : UInt8) (bytes : Bytes) :
    toNat (b :: bytes) = b.toNat * 256 ^ bytes.length + toNat bytes := by
  rw [toNat, List.foldl_cons, Nat.zero_mul, Nat.zero_add]
  exact foldl_toNat bytes b.toNat

theorem toNat_ofNat (width n : Nat) : toNat (ofNat width n) = n % 256 ^ width := by
  induction width with
  | zero => simp [ofNat, toNat, Nat.mod_one]
  | succ width ih =>
      have hbyte : (UInt8.ofNat (n / 256 ^ width % 256)).toNat = n / 256 ^ width % 256 := by
        simp
      rw [ofNat, Nat.pow_eq, toNat_cons, ih, length_ofNat, hbyte, Nat.pow_succ, Nat.mod_mul]
      ring

theorem lt_pow_byteCount (n : Nat) : n < 256 ^ byteCount n := by
  unfold byteCount
  split
  · next hzero => simp [hzero]
  · have hpow : (256 : Nat) ^ (n.log2 / 8 + 1) = 2 ^ (8 * (n.log2 / 8 + 1)) := by
      rw [Nat.pow_mul]
    rw [hpow]
    calc
      n < 2 ^ (n.log2 + 1) := Nat.lt_log2_self
      _ ≤ 2 ^ (8 * (n.log2 / 8 + 1)) := Nat.pow_le_pow_right (by decide) (by omega)

theorem toNat_ofNatMinimal (n : Nat) : toNat (ofNatMinimal n) = n := by
  rw [ofNatMinimal, toNat_ofNat, Nat.mod_eq_of_lt (lt_pow_byteCount n)]

theorem length_ofNatMinimal (n : Nat) : (ofNatMinimal n).length = byteCount n :=
  length_ofNat _ _

theorem byteCount_le_of_lt {n : Nat} (hn : n < 2 ^ 64) : byteCount n ≤ 8 := by
  unfold byteCount
  split
  · exact Nat.zero_le 8
  · next hpos =>
      have hlog : n.log2 < 64 := (Nat.log2_lt hpos).mpr hn
      omega

theorem byteCount_pos {n : Nat} (hn : n ≠ 0) : 0 < byteCount n := by
  rw [byteCount, if_neg hn]
  exact Nat.succ_pos _

theorem byteCount_eq {n width : Nat} (hlow : 256 ^ width ≤ n) (hhigh : n < 256 ^ (width + 1)) :
    byteCount n = width + 1 := by
  have hpos : n ≠ 0 := Nat.ne_of_gt (Nat.lt_of_lt_of_le (Nat.pow_pos (by decide)) hlow)
  have hpow (k : Nat) : (256 : Nat) ^ k = 2 ^ (8 * k) := by rw [Nat.pow_mul]
  rw [hpow] at hlow hhigh
  have hleast := (Nat.le_log2 hpos).mpr hlow
  have hmost := (Nat.log2_lt hpos).mpr hhigh
  rw [byteCount, if_neg hpos]
  omega

theorem le_byteCount {n width : Nat} (hlow : 256 ^ width ≤ n) : width < byteCount n := by
  by_contra hfew
  have hbelow := lt_pow_byteCount n
  have hmono : (256 : Nat) ^ byteCount n ≤ 256 ^ width :=
    Nat.pow_le_pow_right (by decide) (Nat.not_lt.mp hfew)
  omega

end Bytes

namespace Asn1

variable {identifier : UInt8} {content : Bytes}

theorem readLength_encodeLength {n : Nat} (hn : n < 2 ^ 64) (rest : Bytes) :
    Element.readLength (encodeLength n ++ rest) = some (n, rest) := by
  rw [encodeLength, Nat.pow_eq, if_pos hn]
  split
  · next hshort =>
      have hbyte : (UInt8.ofNat n).toNat = n := by
        rw [UInt8.toNat_ofNat']
        omega
      have hsmall : UInt8.ofNat n < 0x80 := by
        rw [UInt8.lt_iff_toNat_lt, hbyte]
        exact hshort
      simp only [List.singleton_append, Element.readLength, if_pos hsmall, hbyte]
  · next hlong =>
      have hcount := Bytes.byteCount_le_of_lt hn
      have hpos : 0 < Bytes.byteCount n := Bytes.byteCount_pos (by omega)
      have hbyte : (UInt8.ofNat (0x80 + (Bytes.ofNatMinimal n).length)).toNat =
          0x80 + Bytes.byteCount n := by
        rw [UInt8.toNat_ofNat', Bytes.length_ofNatMinimal]
        omega
      have hlarge : ¬ UInt8.ofNat (0x80 + (Bytes.ofNatMinimal n).length) < 0x80 := by
        rw [UInt8.lt_iff_toNat_lt, hbyte]
        exact Nat.not_lt.mpr (Nat.le_add_right _ _)
      have hdefinite : ¬ (UInt8.ofNat (0x80 + (Bytes.ofNatMinimal n).length) = 0x80 ∨
          UInt8.ofNat (0x80 + (Bytes.ofNatMinimal n).length) = 0xFF) := by
        simp only [← UInt8.toNat_inj, hbyte, not_or]
        constructor
        · change 128 + _ ≠ 128
          omega
        · change 128 + _ ≠ 255
          omega
      simp only [List.cons_append, Element.readLength, if_neg hlarge, if_neg hdefinite, hbyte,
        Nat.add_sub_cancel_left, ← Bytes.length_ofNatMinimal, List.take_left, List.drop_left,
        Bytes.toNat_ofNatMinimal, List.length_append, Nat.pow_eq]
      rw [if_neg (by omega)]

theorem readLength_encodeLength_eq_none {n : Nat} (hn : 2 ^ 64 ≤ n) (rest : Bytes) :
    Element.readLength (encodeLength n ++ rest) = none := by
  have hlong : ¬ n < 0x80 := by omega
  rw [encodeLength, if_neg hlong, Nat.pow_eq, if_neg (Nat.not_lt.mpr hn)]
  rfl

section Length

variable {n : Nat}

theorem encodeLength_of_lt_256 (hlow : 128 ≤ n) (hhigh : n < 256) :
    encodeLength n = [0x81, UInt8.ofNat n] := by
  have hcount : Bytes.byteCount n = 1 := Bytes.byteCount_eq (by omega) (by omega)
  have hdigits : Bytes.ofNatMinimal n = [UInt8.ofNat n] := by
    simp [Bytes.ofNatMinimal, hcount, Bytes.ofNat, Nat.mod_eq_of_lt hhigh]
  rw [encodeLength, if_neg (Nat.not_lt.mpr hlow),
    if_pos (Nat.lt_trans hhigh (by decide)), hdigits]
  rfl

theorem encodeLength_of_lt_65536 (hlow : 256 ≤ n) (hhigh : n < 65536) :
    encodeLength n = [0x82, UInt8.ofNat (n / 256), UInt8.ofNat (n % 256)] := by
  have hcount : Bytes.byteCount n = 2 := Bytes.byteCount_eq (by omega) (by omega)
  have hdigits : Bytes.ofNatMinimal n = [UInt8.ofNat (n / 256), UInt8.ofNat (n % 256)] := by
    have hquotient : n / 256 % 256 = n / 256 := Nat.mod_eq_of_lt (by omega)
    simp [Bytes.ofNatMinimal, hcount, Bytes.ofNat, hquotient]
  rw [encodeLength, if_neg (by omega), if_pos (Nat.lt_trans hhigh (by decide)), hdigits]
  rfl

/-- A length below 65536 is written in the form that is read strictly. -/
theorem readShortLength_encodeLength (hn : n < 65536) (rest : Bytes) :
    Element.readShortLength (encodeLength n ++ rest) = some (n, rest) := by
  rcases Nat.lt_or_ge n 128 with hshort | hlong
  · have hbyte : (UInt8.ofNat n).toNat = n := by
      rw [UInt8.toNat_ofNat']
      omega
    have hsmall : UInt8.ofNat n < 0x80 := by
      rw [UInt8.lt_iff_toNat_lt, hbyte]
      exact hshort
    rw [encodeLength, if_pos hshort]
    simp only [List.singleton_append, Element.readShortLength, if_pos hsmall, hbyte]
  · rcases Nat.lt_or_ge n 256 with hone | htwo
    · have hbyte : (UInt8.ofNat n).toNat = n := by
        rw [UInt8.toNat_ofNat']
        omega
      have hlarge : 0x80 ≤ UInt8.ofNat n := by
        rw [UInt8.le_iff_toNat_le, hbyte]
        exact hlong
      rw [encodeLength_of_lt_256 hlong hone]
      change (if 0x80 ≤ UInt8.ofNat n then some ((UInt8.ofNat n).toNat, rest) else none) = _
      rw [if_pos hlarge, hbyte]
    · have hhigh : (UInt8.ofNat (n / 256)).toNat = n / 256 := by
        rw [UInt8.toNat_ofNat']
        omega
      have hlow : (UInt8.ofNat (n % 256)).toNat = n % 256 := by
        rw [UInt8.toNat_ofNat']
        omega
      have hnonzero : UInt8.ofNat (n / 256) ≠ 0 := by
        intro hzero
        rw [hzero] at hhigh
        change 0 = n / 256 at hhigh
        omega
      rw [encodeLength_of_lt_65536 htwo hn]
      change (if UInt8.ofNat (n / 256) ≠ 0 then
        some ((UInt8.ofNat (n / 256)).toNat * 256 + (UInt8.ofNat (n % 256)).toNat, rest)
          else none) = _
      rw [if_pos hnonzero, hhigh, hlow, Nat.div_add_mod']

/-- A longer one is not. -/
theorem readShortLength_of_le (hn : 65536 ≤ n) (rest : Bytes) :
    Element.readShortLength (encodeLength n ++ rest) = none := by
  have hlong : ¬ n < 0x80 := by omega
  rw [encodeLength, if_neg hlong]
  split
  · next hfits =>
      have hleast : 3 ≤ Bytes.byteCount n := Bytes.le_byteCount (by omega)
      have hmost : Bytes.byteCount n ≤ 8 := Bytes.byteCount_le_of_lt hfits
      have hbyte : (UInt8.ofNat (0x80 + (Bytes.ofNatMinimal n).length)).toNat =
          0x80 + Bytes.byteCount n := by
        rw [UInt8.toNat_ofNat', Bytes.length_ofNatMinimal]
        omega
      change Element.readShortLength (UInt8.ofNat (0x80 + (Bytes.ofNatMinimal n).length) ::
        (Bytes.ofNatMinimal n ++ rest)) = none
      generalize UInt8.ofNat (0x80 + (Bytes.ofNatMinimal n).length) = first at hbyte ⊢
      have hlarge : ¬ first < 0x80 := by
        rw [UInt8.lt_iff_toNat_lt, hbyte]
        exact Nat.not_lt.mpr (Nat.le_add_right _ _)
      unfold Element.readShortLength
      dsimp only
      rw [if_neg hlarge]
      -- The first byte says that there are at least three more.
      split
      · change 129 = _ at hbyte
        omega
      · change 130 = _ at hbyte
        omega
      · rfl
  · rfl

end Length

theorem length_lt_length_encode (identifier : UInt8) (content : Bytes) :
    content.length < (encode identifier content).length := by
  simp only [encode, List.length_append, List.length_cons]
  omega

/-- A whole element of less than 65540 bytes has a content of less than 65536. -/
theorem length_encode_lt_iff {identifier : UInt8} {content : Bytes} :
    (encode identifier content).length < 65540 ↔ content.length < 65536 := by
  have htotal : (encode identifier content).length =
      1 + (encodeLength content.length).length + content.length := by
    simp only [encode, List.cons_append, List.length_cons, List.length_append]
    omega
  rw [htotal]
  constructor
  · intro hshort
    by_contra hlong
    have hlong := Nat.not_lt.mp hlong
    rcases Nat.lt_or_ge content.length (2 ^ 64) with hfits | hbeyond
    · have hcount : 2 < Bytes.byteCount content.length := Bytes.le_byteCount (by omega)
      rw [encodeLength, if_neg (by omega), Nat.pow_eq, if_pos hfits, List.length_cons,
        Bytes.length_ofNatMinimal] at hshort
      omega
    · omega
  · intro hshort
    rcases Nat.lt_or_ge content.length 128 with hone | htwo
    · rw [encodeLength, if_pos hone, List.length_singleton]
      omega
    · rcases Nat.lt_or_ge content.length 256 with hlow | hhigh
      · rw [encodeLength_of_lt_256 htwo hlow]
        simp only [List.length_cons, List.length_nil]
        omega
      · rw [encodeLength_of_lt_65536 hhigh hshort]
        simp only [List.length_cons, List.length_nil]
        omega

/-- Every part of a sequence is shorter than the sequence. -/
theorem length_lt_length_encodeSequence {part : Bytes} {parts : List Bytes} (hpart : part ∈ parts) :
    part.length < (encodeSequence parts).length :=
  (List.sublist_flatten_of_mem hpart).length_le.trans_lt (length_lt_length_encode sequence _)

theorem length_encode_short (hshort : content.length < 0x80) :
    (encode identifier content).length = content.length + 2 := by
  rw [encode, encodeLength, if_pos hshort]
  simp only [List.cons_append, List.nil_append, List.length_cons]

namespace Element

/-- Identifiers of more than one byte are not read. -/
theorem identifier_of_read {input rest : Bytes} {e : Element}
    (hread : read input = some (e, rest)) : e.identifier.toNat % 32 ≠ 31 := by
  cases input with
  | nil => cases hread
  | cons first others =>
      by_cases hfirst : first.toNat % 32 = 31
      · rw [read, if_pos hfirst] at hread
        cases hread
      · rw [read, if_neg hfirst] at hread
        cases hlength : readLength others with
        | none =>
            rw [hlength] at hread
            cases hread
        | some found =>
            obtain ⟨n, body⟩ := found
            rw [hlength] at hread
            by_cases hshort : body.length < n
            · simp [hshort] at hread
            · simp only [if_neg hshort, Option.some.injEq, Prod.mk.injEq] at hread
              rw [← hread.1]
              exact hfirst

theorem lt_of_readLength {input rest : Bytes} {n : Nat}
    (hread : readLength input = some (n, rest)) : n < 2 ^ 64 := by
  cases input with
  | nil => cases hread
  | cons b others =>
      have hbyte := b.toNat_lt
      rw [readLength] at hread
      split at hread
      · cases hread
        omega
      · split at hread
        · cases hread
        · simp only [Option.ite_none_left_eq_some, Option.some.injEq, Prod.mk.injEq, not_or,
            Nat.not_le, Nat.pow_eq] at hread
          rw [← hread.2.1]
          exact hread.1.2

/-- Nothing that is read is too long to be written. -/
theorem length_of_read {input rest : Bytes} {e : Element}
    (hread : read input = some (e, rest)) : e.content.length < 2 ^ 64 := by
  cases input with
  | nil => cases hread
  | cons identifier others =>
      rw [read] at hread
      split at hread
      · cases hread
      · split at hread
        · cases hread
        · next n body hlength =>
            split at hread
            · cases hread
            · cases hread
              exact (List.length_take_le _ _).trans_lt (lt_of_readLength hlength)

theorem length_of_expect {identifier : UInt8} {input content rest : Bytes}
    (hread : expect identifier input = some (content, rest)) : content.length < 2 ^ 64 := by
  unfold expect at hread
  split at hread
  · next e after helement =>
      rw [Option.ite_none_right_eq_some] at hread
      cases hread.2
      exact length_of_read helement
  · cases hread

/-- What is written is read back. -/
theorem read_encode (hidentifier : identifier.toNat % 32 ≠ 31) (hlength : content.length < 2 ^ 64)
    (rest : Bytes) :
    read (encode identifier content ++ rest) =
      some (⟨identifier, content, encode identifier content⟩, rest) := by
  have hshape : encode identifier content ++ rest =
      identifier :: (encodeLength content.length ++ (content ++ rest)) := by
    simp [encode]
  rw [hshape, read, if_neg hidentifier, readLength_encodeLength hlength]
  have hheader : (1 + ((encodeLength content.length ++ (content ++ rest)).length -
      (content ++ rest).length) + content.length) = (encode identifier content).length := by
    simp only [encode, List.length_append, List.length_cons]
    omega
  have hwhole : identifier :: (encodeLength content.length ++ (content ++ rest)) =
      encode identifier content ++ rest := hshape.symm
  have henough : ¬ (content ++ rest).length < content.length := by
    rw [List.length_append]
    omega
  dsimp only
  rw [if_neg henough, hheader, hwhole, List.take_left, List.take_left, List.drop_left]

/-- An element of less than 65536 bytes is read back strictly. -/
theorem readStrict_encode (hidentifier : identifier.toNat % 32 ≠ 31)
    (hlength : content.length < 65536) (rest : Bytes) :
    readStrict (encode identifier content ++ rest) =
      some (⟨identifier, content, encode identifier content⟩, rest) := by
  have htail : (encode identifier content ++ rest).tail =
      encodeLength content.length ++ (content ++ rest) := by
    simp [encode]
  rw [readStrict, read_encode hidentifier (Nat.lt_trans hlength (by decide)), htail,
    readShortLength_encodeLength hlength]

/-- A longer one is not. -/
theorem readStrict_of_le (hlength : 65536 ≤ content.length) (rest : Bytes) :
    readStrict (encode identifier content ++ rest) = none := by
  have htail : (encode identifier content ++ rest).tail =
      encodeLength content.length ++ (content ++ rest) := by
    simp [encode]
  rw [readStrict, htail, readShortLength_of_le hlength]
  split
  · next h => cases h
  · rfl

/-- Whatever is read of something written is what was written. -/
theorem of_read_encode {rest after : Bytes} {e : Element}
    (hread : read (encode identifier content ++ rest) = some (e, after)) :
    content.length < 2 ^ 64 ∧ e = ⟨identifier, content, encode identifier content⟩ ∧
      after = rest := by
  by_cases hidentifier : identifier.toNat % 32 = 31
  · simp [encode, read, hidentifier] at hread
  · rcases Nat.lt_or_ge content.length (2 ^ 64) with hlength | hlong
    · rw [read_encode hidentifier hlength] at hread
      cases hread
      exact ⟨hlength, rfl, rfl⟩
    · have hnone := readLength_encodeLength_eq_none hlong (content ++ rest)
      simp [encode, read, hidentifier, hnone] at hread

theorem expect_encode (hidentifier : identifier.toNat % 32 ≠ 31)
    (hlength : content.length < 2 ^ 64) (rest : Bytes) :
    expect identifier (encode identifier content ++ rest) = some (content, rest) := by
  rw [expect, read_encode hidentifier hlength]
  exact if_pos rfl

theorem of_expect_encode {wanted : UInt8} {rest found after : Bytes}
    (hread : expect wanted (encode identifier content ++ rest) = some (found, after)) :
    content.length < 2 ^ 64 ∧ found = content ∧ after = rest := by
  unfold expect at hread
  split at hread
  · next e tail helement =>
      obtain ⟨hlength, rfl, rfl⟩ := of_read_encode helement
      split at hread
      · cases hread
        exact ⟨hlength, rfl, rfl⟩
      · cases hread
  · cases hread

section Many

variable {α : Type} {item : Bytes → Option (α × Bytes)} {items : List α} {write : α → Bytes}

theorem many_written (hend : item [] = none)
    (hitem : ∀ a ∈ items, ∀ rest, item (write a ++ rest) = some (a, rest)) {fuel : Nat}
    (hfuel : items.length < fuel) : many item fuel (items.flatMap write) = (items, []) := by
  induction items generalizing fuel with
  | nil =>
      cases fuel with
      | zero => cases hfuel
      | succ fuel => simp [many, hend]
  | cons a items ih =>
      cases fuel with
      | zero => cases hfuel
      | succ fuel =>
          have hrest := ih (fun b hb => hitem b (List.mem_cons_of_mem _ hb))
            (Nat.lt_of_succ_lt_succ hfuel)
          rw [List.flatMap_cons, many, hitem a List.mem_cons_self]
          simp only [hrest]

theorem length_le_length_written (hwritten : ∀ a ∈ items, write a ≠ []) :
    items.length ≤ (items.flatMap write).length := by
  rw [List.length_flatMap]
  induction items with
  | nil => exact Nat.le_refl 0
  | cons a items ih =>
      have hpos : 0 < (write a).length := List.length_pos_iff.mpr (hwritten a List.mem_cons_self)
      have hrest := ih fun b hb => hwritten b (List.mem_cons_of_mem _ hb)
      simp only [List.map_cons, List.sum_cons, List.length_cons]
      omega

/-- Items that are written one after the other are read back. -/
theorem leading_written (hend : item [] = none) (hwritten : ∀ a ∈ items, write a ≠ [])
    (hitem : ∀ a ∈ items, ∀ rest, item (write a ++ rest) = some (a, rest)) :
    leading item (items.flatMap write) = items := by
  rw [leading, many_written hend hitem (Nat.lt_succ_of_le (length_le_length_written hwritten))]

/-- Items that are written one after the other are read back up to the end of the input. -/
theorem all_written (hend : item [] = none) (hwritten : ∀ a ∈ items, write a ≠ [])
    (hitem : ∀ a ∈ items, ∀ rest, item (write a ++ rest) = some (a, rest)) :
    all item (items.flatMap write) = some items := by
  rw [all, many_written hend hitem (Nat.lt_succ_of_le (length_le_length_written hwritten))]

theorem exists_read_of_mem_many {a : α} {fuel : Nat} {input : Bytes}
    (ha : a ∈ (many item fuel input).1) : ∃ front rest, item front = some (a, rest) := by
  induction fuel generalizing input with
  | zero => cases ha
  | succ fuel ih =>
      unfold many at ha
      split at ha
      · cases ha
      · next b rest hread =>
          rcases List.mem_cons.mp ha with rfl | hlater
          · exact ⟨input, rest, hread⟩
          · exact ih hlater

theorem exists_read_of_all {input : Bytes} (hall : all item input = some items) {a : α}
    (ha : a ∈ items) : ∃ front rest, item front = some (a, rest) := by
  unfold all at hall
  split at hall
  · next found hmany =>
      cases hall
      have hmem : a ∈ (many item (input.length + 1) input).1 := by
        rw [hmany]
        exact ha
      exact exists_read_of_mem_many hmem
  · cases hall

end Many

end Element

end Asn1

end CertAuthority
