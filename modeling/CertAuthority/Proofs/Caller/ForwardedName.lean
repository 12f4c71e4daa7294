import CertAuthority.Caller.Identity
import CertAuthority.Proofs.Text.Blank
import Mathlib.Data.List.Forall2

/-!
# Whom a forwarded name names

A forwarded name is split into the attributes that it was written from, whatever commas, backslashes
and equals signs are in their values: so no value is taken for another attribute.  The caller is
named by the first Common Name.  But its value is trimmed after the backslashes are gone, so that
blanks at its ends are lost even where a backslash was written before them.  Two names that differ in
such blanks alone are one caller.
-/

namespace CertAuthority

namespace ForwardedName

open Text (trimChars)

/-- How a text may be spelled: with a backslash before each comma and each backslash, and before
other characters as one likes. -/
inductive Spelling : List Char → List Char → Prop where
  | nil : Spelling [] []
  | plain {c : Char} {spelling text : List Char} (hcomma : c ≠ ',') (hbackslash : c ≠ '\\')
    (hrest : Spelling spelling text) : Spelling (c :: spelling) (c :: text)
  | escaped {c : Char} {spelling text : List Char} (hrest : Spelling spelling text) :
    Spelling ('\\' :: c :: spelling) (c :: text)

section Spelling

variable {spelling text : List Char}

theorem Spelling.append (hspelling : Spelling spelling text) {further more : List Char}
    (hfurther : Spelling further more) : Spelling (spelling ++ further) (text ++ more) := by
  induction hspelling with
  | nil => exact hfurther
  | plain hcomma hbackslash _ ih => exact .plain hcomma hbackslash ih
  | escaped _ ih => exact .escaped ih

/-- A text is spelled character by character. -/
theorem spelling_flatMap {write : Char → List Char}
    (hwrite : ∀ c ∈ text, Spelling (write c) [c]) : Spelling (text.flatMap write) text := by
  induction text with
  | nil => exact .nil
  | cons c text ih =>
      obtain ⟨hc, htext⟩ := List.forall_mem_cons.mp hwrite
      exact hc.append (ih htext)

/-- A spelling is read as its text, and does not end a part. -/
theorem Spelling.splitFrom_append (hspelling : Spelling spelling text)
    (current rest : List Char) :
    splitFrom current false (spelling ++ rest) =
      splitFrom (text.reverse ++ current) false rest := by
  induction hspelling generalizing current with
  | nil => rfl
  | @plain c spelling text hcomma hbackslash _ ih =>
      rw [List.cons_append, splitFrom, if_neg Bool.false_ne_true, if_neg hbackslash, if_neg hcomma,
        ih, List.reverse_cons, List.append_assoc, List.singleton_append]
  | @escaped c spelling text _ ih =>
      have hescaped : splitFrom current false ('\\' :: c :: (spelling ++ rest)) =
          splitFrom (c :: current) false (spelling ++ rest) := rfl
      rw [List.cons_append, List.cons_append, hescaped, ih, List.reverse_cons, List.append_assoc,
        List.singleton_append]

/-- Texts that are spelled with commas between them are split into what they were. -/
theorem split_intercalate {spellings texts : List (List Char)} (htexts : texts ≠ [])
    (hspellings : List.Forall₂ Spelling spellings texts) :
    split ([','].intercalate spellings) = texts := by
  induction hspellings with
  | nil => exact absurd rfl htexts
  | @cons spelling text spellings texts hspelling hrest ih =>
      cases hrest with
      | nil =>
          rw [List.intercalate_singleton, split, ← List.append_nil spelling,
            hspelling.splitFrom_append, List.append_nil, splitFrom, List.reverse_reverse]
      | cons hnext hothers =>
          have hcomma (current rest : List Char) :
              splitFrom current false (',' :: rest) = current.reverse :: split rest := rfl
          rw [List.intercalate_cons_cons, split, List.append_assoc, hspelling.splitFrom_append,
            List.append_nil, List.singleton_append, hcomma, List.reverse_reverse,
            ih (List.cons_ne_nil _ _)]

end Spelling

/-- An attribute of a name. -/
structure Attribute where
  type : List Char
  value : List Char
  plain : ∀ c ∈ type, c ≠ '=' ∧ c ≠ ',' ∧ c ≠ '\\' := by decide

namespace Attribute

variable (a : Attribute)

/-- Type and value, with an equals sign between them. -/
def text : List Char :=
  a.type ++ '=' :: a.value

def isCommonName : Bool :=
  (trimChars a.type).map Char.toUpper = ['C', 'N']

/-- A backslash and a character. -/
def masked (c : Char) : List Char :=
  ['\\', c]

/-- A character, with a backslash before it if it is a comma or a backslash. -/
def escaped (c : Char) : List Char :=
  if c = ',' ∨ c = '\\' then masked c else [c]

/-- A text may be written with no more backslashes than are needed. -/
theorem spelling_escaped (text : List Char) : Spelling (text.flatMap escaped) text := by
  refine spelling_flatMap fun c _ => ?_
  unfold escaped
  split
  · exact .escaped .nil
  · next hplain =>
      obtain ⟨hcomma, hbackslash⟩ := not_or.mp hplain
      exact .plain hcomma hbackslash .nil

/-- The attribute with a backslash before each comma, each backslash and each blank at either end of
its value. -/
def written : List Char :=
  a.type ++ '=' :: ((Text.leadingBlanks a.value).flatMap masked ++
    ((trimChars a.value).flatMap escaped ++ (Text.trailingBlanks a.value).flatMap masked))

/-- That is a spelling of its text. -/
theorem spelling_written : Spelling a.written a.text := by
  have hmasked (text : List Char) : Spelling (text.flatMap masked) text :=
    spelling_flatMap fun c _ => .escaped .nil
  have htype : Spelling a.type a.type := by
    have hwritten : a.type.flatMap (fun c => [c]) = a.type := List.flatMap_singleton' a.type
    have hspelled : Spelling (a.type.flatMap fun c => [c]) a.type :=
      spelling_flatMap fun c hc => .plain (a.plain c hc).2.1 (a.plain c hc).2.2 .nil
    rwa [hwritten] at hspelled
  have hvalue := (hmasked (Text.leadingBlanks a.value)).append
    ((spelling_escaped (trimChars a.value)).append (hmasked (Text.trailingBlanks a.value)))
  rw [Text.leadingBlanks_append] at hvalue
  exact htype.append (.plain (by decide) (by decide) hvalue)

/-- The type ends at the first equals sign, whatever signs are in the value. -/
theorem attributeOf_text : attributeOf a.text = some (a.type, a.value) := by
  have hplain : ∀ c ∈ a.type, decide (c ≠ '=') = true := fun c hc =>
    decide_eq_true (a.plain c hc).1
  rw [attributeOf, text, List.dropWhile_append_of_pos hplain, List.takeWhile_append_of_pos hplain]
  simp

theorem commonNameOf_text : commonNameOf a.text =
    if a.isCommonName then some (trimChars a.value) else none := by
  rw [commonNameOf, attributeOf_text]
  simp only [isCommonName, decide_eq_true_eq]

end Attribute

/-- The value of the first Common Name. -/
def firstCommonName? (attributes : List Attribute) : Option (List Char) :=
  (attributes.find? (·.isCommonName)).map (·.value)

/-- That a text spells attributes, with commas between them. -/
def Spells (dn : String) (attributes : List Attribute) : Prop :=
  ∃ spellings, dn.toList = [','].intercalate spellings ∧
    List.Forall₂ Spelling spellings (attributes.map (·.text))

/-- The attributes with commas between them, and no more backslashes than are needed. -/
def write (attributes : List Attribute) : String :=
  String.ofList ([','].intercalate (attributes.map (·.written)))

theorem spells_write (attributes : List Attribute) : Spells (write attributes) attributes := by
  refine ⟨_, String.toList_ofList, ?_⟩
  rw [List.forall₂_map_left_iff, List.forall₂_map_right_iff, List.forall₂_same]
  exact fun a _ => a.spelling_written

theorem findSome?_commonNameOf (attributes : List Attribute) :
    (attributes.map (·.text)).findSome? commonNameOf =
      (firstCommonName? attributes).map trimChars := by
  induction attributes with
  | nil => rfl
  | cons a attributes ih =>
      rw [List.map_cons, List.findSome?_cons, a.commonNameOf_text, firstCommonName?, List.find?_cons]
      cases a.isCommonName with
      | true => rfl
      | false => exact ih

/-- What is found is the first Common Name, trimmed. -/
theorem commonName?_of_spells {dn : String} {attributes : List Attribute}
    (hspells : Spells dn attributes) :
    commonName? dn.toList =
      ((firstCommonName? attributes).map trimChars).filter (!·.isEmpty) := by
  obtain ⟨spellings, hdn, hspellings⟩ := hspells
  rw [hdn, commonName?]
  cases attributes with
  | nil =>
      cases hspellings
      rfl
  | cons a attributes =>
      have hparts := split_intercalate (by simp) hspellings
      rw [hparts, findSome?_commonNameOf]

theorem commonName?_eq_some_iff {dn : String} {attributes : List Attribute}
    (hspells : Spells dn attributes) (name : List Char) :
    commonName? dn.toList = some name ↔
      ∃ value, firstCommonName? attributes = some value ∧ trimChars value = name ∧ name ≠ [] := by
  rw [commonName?_of_spells hspells, Option.filter_eq_some_iff, Option.map_eq_some_iff]
  simp only [Bool.not_eq_true', List.isEmpty_eq_false_iff, ← exists_and_right, and_assoc]

end ForwardedName

namespace CallerIdentity

open ForwardedName (Attribute Spells firstCommonName? write)
open Text (trimChars IsTrimmed)

variable {attributes : List Attribute} {dn : String} {value : List Char}

theorem ofForwardedDn_eq_ok_iff {caller : CallerIdentity} : ofForwardedDn dn = .ok caller ↔
    ∃ name, ForwardedName.commonName? dn.toList = some name ∧
      verified (String.ofList name) = caller := by
  unfold ofForwardedDn
  cases ForwardedName.commonName? dn.toList with
  | none => simp
  | some name => simp

/-- Whoever is known by a forwarded name is known by its first Common Name, trimmed. -/
theorem ofForwardedDn_of_spells (hspells : Spells dn attributes) (caller : CallerIdentity) :
    ofForwardedDn dn = .ok caller ↔ ∃ value, firstCommonName? attributes = some value ∧
      trimChars value ≠ [] ∧ verified (String.ofList (trimChars value)) = caller := by
  simp only [ofForwardedDn_eq_ok_iff, ForwardedName.commonName?_eq_some_iff hspells]
  constructor
  · rintro ⟨_, ⟨value, hfirst, rfl, hnonempty⟩, hcaller⟩
    exact ⟨value, hfirst, hnonempty, hcaller⟩
  · rintro ⟨value, hfirst, hnonempty, hcaller⟩
    exact ⟨_, ⟨value, hfirst, rfl, hnonempty⟩, hcaller⟩

/-- What is certain of the callers that forwarded names name. -/
structure Attribution (attributes : List Attribute) : Prop where
  /-- The attributes may be written so, among other ways. -/
  written : Spells (write attributes) attributes
  /-- In whatever way they are written, it is the first Common Name that names the caller, with the
  blanks at its ends taken away, and no value of another attribute. -/
  known : ∀ dn, Spells dn attributes → ∀ caller,
    ofForwardedDn dn = .ok caller ↔ ∃ value, firstCommonName? attributes = some value ∧
      trimChars value ≠ [] ∧ verified (String.ofList (trimChars value)) = caller
  /-- Without one, or with one of blanks alone, nobody is named. -/
  refused : ∀ dn, Spells dn attributes →
    (∀ value, firstCommonName? attributes = some value → trimChars value = []) →
      ofForwardedDn dn =
        .error (.untrustedClientCertificate ("forwarded subject has no CN: " ++ dn))
  /-- So a caller has the very name that was written if and only if that is not empty and has no
  blank at either end. -/
  exact : ∀ dn, Spells dn attributes → ∀ value, firstCommonName? attributes = some value →
    (ofForwardedDn dn = .ok (verified (String.ofList value)) ↔
      value ≠ [] ∧ IsTrimmed (String.ofList value))
  /-- Two names are one caller if and only if they differ in such blanks at most. -/
  confused : ∀ dn, Spells dn attributes → ∀ others other, Spells other others →
    ∀ value first, firstCommonName? attributes = some value → firstCommonName? others = some first →
      ((∃ caller, ofForwardedDn dn = .ok caller ∧ ofForwardedDn other = .ok caller) ↔
        trimChars value = trimChars first ∧ trimChars value ≠ [])

/-- A caller is named by the first Common Name of a forwarded name, trimmed of blanks whether or not
they were written with a backslash. -/
theorem attribution (attributes : List Attribute) : Attribution attributes where
  written := ForwardedName.spells_write attributes
  known dn hspells caller := ofForwardedDn_of_spells hspells caller
  refused := by
    intro dn hspells hnone
    have hname : ForwardedName.commonName? dn.toList = none := by
      rw [ForwardedName.commonName?_of_spells hspells]
      cases hfirst : firstCommonName? attributes with
      | none => rfl
      | some value => simp [hnone value hfirst]
    rw [ofForwardedDn, hname]
  exact := by
    intro dn hspells value hfirst
    have hsame : trimChars value = value ↔ IsTrimmed (String.ofList value) := by
      rw [← Text.trim_eq_self_iff, Text.trim, String.toList_ofList, String.ofList_inj]
    rw [ofForwardedDn_of_spells hspells, ← hsame]
    constructor
    · rintro ⟨found, hfound, hnonempty, hcaller⟩
      cases hfirst.symm.trans hfound
      have hname : trimChars value = value :=
        String.ofList_inj.mp (congrArg CallerIdentity.commonName hcaller)
      rw [hname] at hnonempty
      exact ⟨hnonempty, hname⟩
    · rintro ⟨hnonempty, htrimmed⟩
      exact ⟨value, hfirst, by rwa [htrimmed], by rw [htrimmed]⟩
  confused := by
    intro dn hspells others other hother value first hvalue hfirst
    constructor
    · rintro ⟨caller, hcaller, hsame⟩
      obtain ⟨_, hfound, hnonempty, rfl⟩ := (ofForwardedDn_of_spells hspells caller).mp hcaller
      obtain ⟨_, hthere, -, hname⟩ := (ofForwardedDn_of_spells hother _).mp hsame
      cases hvalue.symm.trans hfound
      cases hfirst.symm.trans hthere
      exact ⟨(String.ofList_inj.mp (congrArg CallerIdentity.commonName hname)).symm, hnonempty⟩
    · rintro ⟨hsame, hnonempty⟩
      refine ⟨verified (String.ofList (trimChars value)), ?_, ?_⟩
      · exact (ofForwardedDn_of_spells hspells _).mpr ⟨value, hvalue, hnonempty, rfl⟩
      · rw [hsame] at hnonempty ⊢
        exact (ofForwardedDn_of_spells hother _).mpr ⟨first, hfirst, hnonempty, rfl⟩

example : ofForwardedDn "CN=\\ host1_alice_J,O=a\\,b" = .ok (verified "host1_alice_J") := by
  decide +kernel

end CallerIdentity

end CertAuthority
