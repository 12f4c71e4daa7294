import CertAuthority.Identifier
import CertAuthority.Proofs.Text.Blank

/-!
# One written form for serial numbers

A serial number has one written form, upper-case hexadecimal.  Operators may type it in other ways:
with letters of either case, with colons anywhere, and with blanks around the whole.  Exactly these
spellings are read, and each of them as the written form.
-/

namespace CertAuthority

namespace Hex

/-- The digits of the written form. -/
def upperDigits : List Char :=
  "0123456789ABCDEF".toList

theorem digitUpper_mem : ∀ n < 16, digitUpper n ∈ upperDigits := by
  decide

theorem length_encodeUpper (bytes : Bytes) :
    (encodeUpper bytes).toList.length = 2 * bytes.length := by
  rw [encodeUpper, String.toList_ofList, encodeWith]
  induction bytes with
  | nil => rfl
  | cons b bytes ih => simp only [List.flatMap_cons, List.length_append, ih, List.length_cons,
      List.length_nil]; omega

theorem mem_upperDigits_of_mem_encodeUpper {bytes : Bytes} {c : Char}
    (hc : c ∈ (encodeUpper bytes).toList) : c ∈ upperDigits := by
  rw [encodeUpper, String.toList_ofList, encodeWith, List.mem_flatMap] at hc
  obtain ⟨b, -, hc⟩ := hc
  have hb := b.toNat_lt
  simp only [List.mem_cons, List.not_mem_nil, or_false] at hc
  rcases hc with rfl | rfl
  · exact digitUpper_mem _ (by omega)
  · exact digitUpper_mem _ (by omega)

end Hex

namespace SerialNumber

open Hex (digitValue upperDigits)

/-- That a text is in the one written form. -/
structure IsWritten (digits : List Char) : Prop where
  nonempty : digits ≠ []
  upper : ∀ d ∈ digits, d ∈ upperDigits

/-- How digits may be spelled: with letters of either case, and with colons anywhere. -/
inductive Spells : List Char → List Char → Prop where
  | nil : Spells [] []
  | colon {text digits : List Char} (hrest : Spells text digits) : Spells (':' :: text) digits
  | digit {c d : Char} {text digits : List Char} (hcase : c = d ∨ c = d.toLower)
    (hrest : Spells text digits) : Spells (c :: text) (d :: digits)

/-- That a text is what an operator may type for some digits: a spelling with blanks around it. -/
def Typed (input digits : List Char) : Prop :=
  ∃ before text after, input = before ++ (text ++ after) ∧ (∀ c ∈ before, Text.isBlank c) ∧
    (∀ c ∈ after, Text.isBlank c) ∧ Spells text digits

section Characters

variable {c d : Char} {text digits : List Char}

/-- What holds of all characters of ASCII holds of every character up to the last of them. -/
theorem of_ascii {holds : Char → Prop} (hascii : ∀ n < 128, holds (Char.ofNat n))
    (hc : c.toNat < 128) : holds c := by
  rw [← Char.ofNat_toNat c]
  exact hascii _ hc

theorem upper_of_le (hc : 128 ≤ c.toNat) : upper c = c := by
  have hbeyond : ¬ c ≤ 'z' := by
    rw [Char.le_def, UInt32.le_iff_toNat_le]
    exact Nat.not_le.mpr (Nat.lt_of_lt_of_le (by decide) hc)
  exact if_neg fun hlower => hbeyond hlower.2

/-- A character is its upper-case form, or the lower-case letter of it. -/
theorem eq_upper_or (c : Char) : c = upper c ∨ c = (upper c).toLower := by
  by_cases hc : c.toNat < 128
  · exact @of_ascii c (fun c => c = upper c ∨ c = (upper c).toLower) (by decide) hc
  · exact .inl (upper_of_le (Nat.not_lt.mp hc)).symm

theorem mem_upperDigits_of_digitValue (hdigit : (digitValue (upper c)).isSome) :
    upper c ∈ upperDigits := by
  by_cases hc : c.toNat < 128
  · exact @of_ascii c (fun c => (digitValue (upper c)).isSome → upper c ∈ upperDigits)
      (by decide) hc hdigit
  · have hbeyond (last : Char) (hlast : last.toNat < 128) : ¬ c ≤ last := by
      rw [Char.le_def, UInt32.le_iff_toNat_le]
      exact Nat.not_le.mpr (Nat.lt_of_lt_of_le hlast (Nat.not_lt.mp hc))
    rw [upper_of_le (Nat.not_lt.mp hc), digitValue, if_neg fun h => hbeyond '9' (by decide) h.2,
      if_neg fun h => hbeyond 'f' (by decide) h.2,
      if_neg fun h => hbeyond 'F' (by decide) h.2] at hdigit
    cases hdigit

/-- Either letter of a digit stands for it, and is taken neither for a colon nor for a blank. -/
theorem of_mem_upperDigits (hd : d ∈ upperDigits) (hcase : c = d ∨ c = d.toLower) :
    upper c = d ∧ c ≠ ':' ∧ Text.isBlank c = false ∧ (digitValue d).isSome := by
  have hall : (upperDigits.all fun d => [d, d.toLower].all fun c =>
      upper c = d ∧ c ≠ ':' ∧ Text.isBlank c = false ∧ (digitValue d).isSome) = true := by
    decide
  have hletters := List.all_eq_true.mp hall d hd
  exact of_decide_eq_true (List.all_eq_true.mp hletters c (by simpa using hcase))

theorem spells_filter (text : List Char) : Spells text ((text.filter (· ≠ ':')).map upper) := by
  induction text with
  | nil => exact .nil
  | cons c text ih =>
      by_cases hcolon : c = ':'
      · rw [hcolon]
        exact .colon ih
      · rw [List.filter_cons_of_pos (by simpa using hcolon)]
        exact .digit (eq_upper_or c) ih

theorem Spells.filter_eq (hspells : Spells text digits) (hupper : ∀ d ∈ digits, d ∈ upperDigits) :
    (text.filter (· ≠ ':')).map upper = digits := by
  induction hspells with
  | nil => rfl
  | colon hrest ih => exact ih hupper
  | digit hcase hrest ih =>
      obtain ⟨hd, hdigits⟩ := List.forall_mem_cons.mp hupper
      obtain ⟨hdigit, hcolon, -, -⟩ := of_mem_upperDigits hd hcase
      rw [List.filter_cons_of_pos (by simpa using hcolon), List.map_cons, hdigit, ih hdigits]

theorem Spells.not_isBlank (hspells : Spells text digits)
    (hupper : ∀ d ∈ digits, d ∈ upperDigits) : ∀ c ∈ text, Text.isBlank c = false := by
  induction hspells with
  | nil => exact List.forall_mem_nil _
  | colon hrest ih => exact List.forall_mem_cons.mpr ⟨by decide, ih hupper⟩
  | digit hcase hrest ih =>
      obtain ⟨hd, hdigits⟩ := List.forall_mem_cons.mp hupper
      exact List.forall_mem_cons.mpr ⟨(of_mem_upperDigits hd hcase).2.2.1, ih hdigits⟩

theorem spells_refl (digits : List Char) : Spells digits digits := by
  induction digits with
  | nil => exact .nil
  | cons d digits ih => exact .digit (.inl rfl) ih

end Characters

section Texts

variable {input : String} {n : SerialNumber} {bytes : Bytes}

theorem isWritten_ofBytes (hbytes : bytes ≠ []) : IsWritten (ofBytes bytes).text.toList where
  nonempty := by
    rw [← List.length_pos_iff, ofBytes, Hex.length_encodeUpper]
    have hlength := List.length_pos_iff.mpr hbytes
    omega
  upper _ := Hex.mem_upperDigits_of_mem_encodeUpper

/-- The spellings of the digits of the written form, and they alone, are normalized to it. -/
theorem normalize_of_typed {text digits : List Char} (htyped : Typed text digits)
    (hupper : ∀ d ∈ digits, d ∈ upperDigits) : normalize text = digits := by
  obtain ⟨before, spelling, after, rfl, hbefore, hafter, hspells⟩ := htyped
  have hplain := hspells.not_isBlank hupper
  have htrimmed : Text.trimChars spelling = spelling :=
    Text.trimChars_eq_self (fun c hc => hplain c (List.mem_of_mem_head? hc))
      fun c hc => hplain c (List.mem_of_mem_getLast? hc)
  rw [normalize, Text.trimChars_append hbefore hafter, htrimmed]
  exact hspells.filter_eq hupper

theorem typed_normalize (text : List Char) : Typed text (normalize text) := by
  obtain ⟨before, after, htext, hbefore, hafter⟩ := Text.exists_eq_append_trimChars text
  exact ⟨before, _, after, htext, hbefore, hafter, spells_filter _⟩

/-- What is read, and as what. -/
theorem parse_eq_ok_iff :
    parse input = .ok n ↔ IsWritten n.text.toList ∧ Typed input.toList n.text.toList := by
  have hwritten : IsWritten (normalize input.toList) ↔
      ¬ ((normalize input.toList).isEmpty ∨
        !(normalize input.toList).all fun c => (digitValue c).isSome) := by
    rw [not_or, List.isEmpty_iff, Bool.not_eq_true', Bool.not_eq_false, List.all_eq_true]
    refine ⟨fun h => ⟨h.nonempty, fun d hd => (of_mem_upperDigits (h.upper d hd) (.inl rfl)).2.2.2⟩,
      fun ⟨hnonempty, hdigits⟩ => ⟨hnonempty, fun d hd => ?_⟩⟩
    obtain ⟨c, -, rfl⟩ := List.mem_map.mp hd
    exact mem_upperDigits_of_digitValue (hdigits _ hd)
  constructor
  · intro hparsed
    simp only [parse] at hparsed
    split at hparsed
    · cases hparsed
    · next hdigits =>
        cases hparsed
        rw [String.toList_ofList]
        exact ⟨hwritten.mpr hdigits, typed_normalize _⟩
  · rintro ⟨hn, htyped⟩
    have hnormal : normalize input.toList = n.text.toList := normalize_of_typed htyped hn.upper
    rw [← hnormal] at hn
    simp only [parse]
    rw [if_neg (hwritten.mp hn), hnormal, String.ofList_toList]

example : parse " 0a:7F\n" = .ok ⟨"0A7F"⟩ := by
  decide +kernel

/-- What is read is in the written form, and read again as itself. -/
theorem parse_text (hparsed : parse input = .ok n) : parse n.text = .ok n := by
  obtain ⟨hwritten, -⟩ := parse_eq_ok_iff.mp hparsed
  have hplain : Typed n.text.toList n.text.toList :=
    ⟨[], n.text.toList, [], (List.append_nil _).symm, List.forall_mem_nil _, List.forall_mem_nil _,
      spells_refl _⟩
  exact parse_eq_ok_iff.mpr ⟨hwritten, hplain⟩

/-- Whatever may be typed for a byte string is read as its written form. -/
theorem parse_of_typed (hbytes : bytes ≠ [])
    (htyped : Typed input.toList (ofBytes bytes).text.toList) : parse input = .ok (ofBytes bytes) :=
  parse_eq_ok_iff.mpr ⟨isWritten_ofBytes hbytes, htyped⟩

end Texts

end SerialNumber

end CertAuthority
