import CertAuthority.Proofs.Asn1.Element
import CertAuthority.X509.SingleValued

/-!
# Names that are read, written and read again

A name that was read can be written, and is read back as it was.  A name with one value for each
type keeps the last value of every type, while the text of a name is that of the first.
-/

namespace CertAuthority.X509

open Asn1 (Element)

namespace NameAttribute

/-- An attribute whose type and tag can be written so that they are read back. -/
def Proper (a : NameAttribute) : Prop :=
  Oid.ofContent? a.type.content = some a.type ∧ a.tag.toNat % 32 ≠ 31

/-- Only proper attributes are read. -/
theorem proper_of_read {input rest : Bytes} {a : NameAttribute}
    (hread : read input = some (a, rest)) : a.Proper := by
  simp only [read, Option.bind_eq_bind, Option.bind_eq_some_iff, Option.pure_def,
    Option.some.injEq, Prod.mk.injEq, Prod.exists] at hread
  obtain ⟨content, after, -, type, values, htype, e, tail, helement, rfl, -⟩ := hread
  constructor
  · unfold Oid.read at htype
    split at htype
    · simp only [Option.map_eq_some_iff, Prod.mk.injEq] at htype
      obtain ⟨oid, hoid, rfl, -⟩ := htype
      have hsame := hoid
      unfold Oid.ofContent? at hsame
      split at hsame
      · split at hsame
        · cases hsame
          exact hoid
        · cases hsame
      · cases hsame
    · cases htype
  · exact Element.identifier_of_read helement

/-- A proper attribute is read back. -/
theorem read_encode {a : NameAttribute} (hproper : a.Proper) (hlength : a.encode.length < 2 ^ 64)
    (rest : Bytes) : read (a.encode ++ rest) = some (a, rest) := by
  obtain ⟨type, tag, value⟩ := a
  obtain ⟨htype, htag⟩ := hproper
  have hcontent : ([type.encode, Asn1.encode tag value].flatten).length < 2 ^ 64 :=
    (Asn1.length_lt_length_encode Asn1.sequence _).trans hlength
  have hparts : type.encode.length + (Asn1.encode tag value).length < 2 ^ 64 := by
    simpa using hcontent
  have hoid : type.content.length < 2 ^ 64 := by
    have := Asn1.length_lt_length_encode Asn1.objectIdentifier type.content
    rw [Oid.encode] at hparts
    omega
  have hvalue : value.length < 2 ^ 64 := by
    have := Asn1.length_lt_length_encode tag value
    omega
  have htypeRead : Oid.read (type.encode ++ (Asn1.encode tag value ++ [])) =
      some (type, Asn1.encode tag value ++ []) := by
    rw [Oid.read, Oid.encode, Element.expect_encode (by decide) hoid]
    simp only [htype, Option.map_some]
  have hvalueRead : Element.read (Asn1.encode tag value ++ []) =
      some (⟨tag, value, Asn1.encode tag value⟩, []) :=
    Element.read_encode htag hvalue []
  rw [read, encode, Asn1.encodeSequence, Element.expect_encode (by decide) hcontent]
  simp only [List.flatten_cons, List.flatten_nil, Option.bind_eq_bind, Option.bind_some]
  rw [htypeRead]
  simp only [Option.bind_some]
  rw [hvalueRead]
  rfl

theorem find?_insert (a : NameAttribute) (kept : List NameAttribute) (type : Oid) :
    (a.insert kept).find? (·.type = type) =
      if a.type = type then some a else kept.find? (·.type = type) := by
  induction kept with
  | nil => by_cases hsought : a.type = type <;> simp [insert, hsought]
  | cons b kept ih =>
      by_cases hsame : b.type = a.type
      · by_cases hsought : a.type = type <;> simp [insert, hsame, hsought]
      · rw [insert, if_neg hsame]
        by_cases hsought : b.type = type
        · have hother : a.type ≠ type := fun h => hsame (hsought.trans h.symm)
          simp [hsought, hother]
        · simp only [List.find?_cons, hsought, decide_false, ih]

theorem mem_insert {a b : NameAttribute} {kept : List NameAttribute} (hb : b ∈ a.insert kept) :
    b = a ∨ b ∈ kept := by
  induction kept with
  | nil => exact .inl (List.mem_singleton.mp hb)
  | cons c kept ih =>
      unfold insert at hb
      split at hb
      · rcases List.mem_cons.mp hb with rfl | hlater
        · exact .inl rfl
        · exact .inr (List.mem_cons_of_mem _ hlater)
      · rcases List.mem_cons.mp hb with rfl | hlater
        · exact .inr List.mem_cons_self
        · exact (ih hlater).imp_right (List.mem_cons_of_mem _)

/-- The last attribute of a type is the one that is kept. -/
theorem find?_foldl_insert (attributes kept : List NameAttribute) (type : Oid) :
    (attributes.foldl (fun kept a => a.insert kept) kept).find? (·.type = type) =
      (attributes.reverse.find? (·.type = type)).or (kept.find? (·.type = type)) := by
  induction attributes generalizing kept with
  | nil => rfl
  | cons a attributes ih =>
      rw [List.foldl_cons, ih, find?_insert, List.reverse_cons, List.find?_append, Option.or_assoc]
      by_cases hsought : a.type = type <;> simp [hsought]

theorem mem_foldl_insert {attributes kept : List NameAttribute} {a : NameAttribute}
    (ha : a ∈ attributes.foldl (fun kept a => a.insert kept) kept) :
    a ∈ attributes ∨ a ∈ kept := by
  induction attributes generalizing kept with
  | nil => exact .inr ha
  | cons b attributes ih =>
      rcases ih ha with hlater | hinserted
      · exact .inl (List.mem_cons_of_mem _ hlater)
      · rcases mem_insert hinserted with rfl | hkept
        · exact .inl List.mem_cons_self
        · exact .inr hkept

/-- The types that are kept: a new one comes last. -/
theorem types_insert (a : NameAttribute) (kept : List NameAttribute) :
    (a.insert kept).map type =
      if a.type ∈ kept.map type then kept.map type else kept.map type ++ [a.type] := by
  induction kept with
  | nil => rfl
  | cons b kept ih =>
      by_cases hsame : b.type = a.type
      · simp [insert, hsame]
      · rw [insert, if_neg hsame, List.map_cons, ih]
        by_cases hkept : a.type ∈ kept.map type
        · rw [if_pos hkept, List.map_cons, if_pos (List.mem_cons_of_mem _ hkept)]
        · have hnew : a.type ∉ b.type :: kept.map type := by
            simp only [List.mem_cons, not_or]
            exact ⟨Ne.symm hsame, hkept⟩
          rw [if_neg hkept, List.map_cons, if_neg hnew, List.cons_append]

theorem insert_eq_append {a : NameAttribute} {kept : List NameAttribute}
    (hnew : a.type ∉ kept.map type) : a.insert kept = kept ++ [a] := by
  induction kept with
  | nil => rfl
  | cons b kept ih =>
      simp only [List.map_cons, List.mem_cons, not_or] at hnew
      rw [insert, if_neg (Ne.symm hnew.1), ih hnew.2, List.cons_append]

theorem nodup_types_foldl_insert {attributes kept : List NameAttribute}
    (hkept : (kept.map type).Nodup) :
    ((attributes.foldl (fun kept a => a.insert kept) kept).map type).Nodup := by
  induction attributes generalizing kept with
  | nil => exact hkept
  | cons a attributes ih =>
      apply ih
      rw [types_insert]
      split
      · exact hkept
      · next hnew =>
          refine List.nodup_append.mpr ⟨hkept, by simp, fun b hb c hc hsame => hnew ?_⟩
          rwa [← List.mem_singleton.mp hc, ← hsame]

theorem foldl_insert_eq_append {attributes kept : List NameAttribute}
    (hnew : ((kept ++ attributes).map type).Nodup) :
    attributes.foldl (fun kept a => a.insert kept) kept = kept ++ attributes := by
  induction attributes generalizing kept with
  | nil => exact (List.append_nil kept).symm
  | cons a attributes ih =>
      have hfirst : a.type ∉ kept.map type := by
        rw [List.map_append, List.map_cons] at hnew
        exact fun hkept => (List.nodup_append.mp hnew).2.2 _ hkept _ List.mem_cons_self rfl
      rw [List.foldl_cons, insert_eq_append hfirst, ih (by simpa using hnew)]
      exact List.append_assoc kept [a] attributes

/-- Nothing is lost of a list in which every type stands once, and only of such a list. -/
theorem foldl_insert_eq_self_iff (attributes : List NameAttribute) :
    attributes.foldl (fun kept a => a.insert kept) [] = attributes ↔
      (attributes.map type).Nodup := by
  constructor
  · intro hsame
    rw [← hsame]
    exact nodup_types_foldl_insert List.nodup_nil
  · intro hnodup
    exact foldl_insert_eq_append (by simpa using hnodup)

end NameAttribute

namespace Name

/-- The text of the last attribute of a type; nothing if that one has no text. -/
def lastText? (name : Name) (type : Oid) : Option String :=
  (name.attributes.reverse.find? (·.type = type)).bind (·.text?)

/-- A name that can be written so that it is read back. -/
def Proper (name : Name) : Prop :=
  ∀ attributes ∈ name.relativeNames, attributes ≠ [] ∧ ∀ a ∈ attributes, a.Proper

/-- Only proper names are read. -/
theorem proper_ofContent (content : Bytes) : (ofContent content).Proper := by
  intro attributes hattributes
  obtain ⟨front, rest, hread⟩ := Element.exists_read_of_mem_many hattributes
  simp only [readRelativeName, Option.bind_eq_bind, Option.bind_eq_some_iff, Prod.exists] at hread
  obtain ⟨inner, after, -, hread⟩ := hread
  split at hread
  · cases hread
  · next hnonempty =>
      cases hread
      refine ⟨hnonempty, fun a ha => ?_⟩
      obtain ⟨one, tail, hone⟩ := Element.exists_read_of_mem_many ha
      exact NameAttribute.proper_of_read hone

theorem readRelativeName_encode {attributes : List NameAttribute} (hnonempty : attributes ≠ [])
    (hproper : ∀ a ∈ attributes, a.Proper)
    (hlength : (attributes.flatMap NameAttribute.encode).length < 2 ^ 64) (rest : Bytes) :
    readRelativeName (Asn1.encode Asn1.set (attributes.flatMap NameAttribute.encode) ++ rest) =
      some (attributes, rest) := by
  have hitem : ∀ a ∈ attributes, ∀ rest,
      NameAttribute.read (a.encode ++ rest) = some (a, rest) := by
    intro a ha
    apply NameAttribute.read_encode (hproper a ha)
    exact (List.sublist_flatten_of_mem (List.mem_map_of_mem ha)).length_le.trans_lt hlength
  have hleading : Element.leading NameAttribute.read (attributes.flatMap NameAttribute.encode) =
      attributes :=
    Element.leading_written rfl (fun a _ => List.cons_ne_nil _ _) hitem
  rw [readRelativeName, Element.expect_encode (by decide) hlength]
  simp only [Option.bind_eq_bind, Option.bind_some, hleading]
  cases attributes with
  | nil => exact absurd rfl hnonempty
  | cons a attributes => rfl

/-- If a proper name that was written is read, then as it was. -/
theorem of_read_encode {name found : Name} (hproper : name.Proper) {rest after : Bytes}
    (hread : read (name.encode ++ rest) = some (found, after)) : found = name ∧ after = rest := by
  simp only [read, Option.bind_eq_bind, Option.bind_eq_some_iff, Option.pure_def,
    Option.some.injEq, Prod.mk.injEq, Prod.exists] at hread
  obtain ⟨content, tail, hcontent, rfl, rfl⟩ := hread
  obtain ⟨hlength, rfl, rfl⟩ := Element.of_expect_encode hcontent
  refine ⟨?_, rfl⟩
  obtain ⟨relativeNames⟩ := name
  have hitem : ∀ attributes ∈ relativeNames, ∀ rest,
      readRelativeName (Asn1.encode Asn1.set (attributes.flatMap NameAttribute.encode) ++ rest) =
        some (attributes, rest) := by
    intro attributes hattributes
    obtain ⟨hnonempty, hall⟩ := hproper attributes hattributes
    apply readRelativeName_encode hnonempty hall
    have hwritten := Asn1.length_lt_length_encode Asn1.set
      (attributes.flatMap NameAttribute.encode)
    have hmem : Asn1.encode Asn1.set (attributes.flatMap NameAttribute.encode) ∈
        relativeNames.map fun attributes =>
          Asn1.encode Asn1.set (attributes.flatMap NameAttribute.encode) :=
      List.mem_map_of_mem hattributes
    exact hwritten.trans ((List.sublist_flatten_of_mem hmem).length_le.trans_lt hlength)
  have hleading : Element.leading readRelativeName (relativeNames.flatMap fun attributes =>
      Asn1.encode Asn1.set (attributes.flatMap NameAttribute.encode)) = relativeNames :=
    Element.leading_written rfl (fun _ _ => List.cons_ne_nil _ _) hitem
  exact congrArg Name.mk hleading

/-- The attributes of a name in which each relative name has one. -/
theorem relativeNames_of_plainAttributes? {name : Name} {attributes : List NameAttribute}
    (hplain : name.plainAttributes? = some attributes) :
    name.relativeNames = attributes.map ([·]) := by
  obtain ⟨relativeNames⟩ := name
  unfold plainAttributes? at hplain
  induction relativeNames generalizing attributes with
  | nil =>
      cases hplain
      rfl
  | cons first others ih =>
      simp only [List.mapM_cons, Option.bind_eq_bind, Option.bind_eq_some_iff, Option.pure_def,
        Option.some.injEq] at hplain
      obtain ⟨a, hfirst, rest, hothers, rfl⟩ := hplain
      split at hfirst
      · split at hfirst
        · cases hfirst
          exact congrArg (List.cons [a]) (ih hothers)
        · cases hfirst
      · cases hfirst

theorem attributes_ofAttributes (attributes : List NameAttribute) :
    (ofAttributes attributes).attributes = attributes := by
  induction attributes with
  | nil => rfl
  | cons a attributes ih => exact congrArg (a :: ·) ih

/-- The first text of a type in a name with one value for each type is the last text before. -/
theorem firstText?_of_singleValued? {name single : Name}
    (hsingle : name.singleValued? = some single) (type : Oid) :
    single.firstText? type = name.lastText? type := by
  simp only [singleValued?, Option.map_eq_some_iff] at hsingle
  obtain ⟨attributes, hplain, rfl⟩ := hsingle
  have hname : name.attributes = attributes := by
    rw [Name.attributes, relativeNames_of_plainAttributes? hplain]
    exact attributes_ofAttributes attributes
  rw [firstText?, attributes_ofAttributes, NameAttribute.find?_foldl_insert, lastText?, hname,
    List.find?_nil, Option.or_none]

theorem Proper.singleValued? {name single : Name} (hproper : name.Proper)
    (hsingle : name.singleValued? = some single) : single.Proper := by
  simp only [Name.singleValued?, Option.map_eq_some_iff] at hsingle
  obtain ⟨attributes, hplain, rfl⟩ := hsingle
  intro kept hkept
  obtain ⟨a, ha, rfl⟩ := List.mem_map.mp hkept
  refine ⟨List.cons_ne_nil _ _, fun b hb => ?_⟩
  rw [List.mem_singleton.mp hb]
  rcases NameAttribute.mem_foldl_insert ha with hmem | hnone
  · have hrelative : [a] ∈ name.relativeNames := by
      rw [relativeNames_of_plainAttributes? hplain]
      exact List.mem_map_of_mem hmem
    exact (hproper _ hrelative).2 a List.mem_cons_self
  · cases hnone

/-- If a type stands once, its first text is its last. -/
theorem firstText?_eq_lastText? {name : Name} {type : Oid}
    (honce : name.attributes.countP (·.type = type) ≤ 1) :
    name.firstText? type = name.lastText? type := by
  have hsame (attributes : List NameAttribute)
      (honce : attributes.countP (·.type = type) ≤ 1) :
      attributes.find? (·.type = type) = attributes.reverse.find? (·.type = type) := by
    induction attributes with
    | nil => rfl
    | cons a attributes ih =>
        rw [List.reverse_cons, List.find?_append, List.find?_cons]
        by_cases hsought : a.type = type
        · rw [List.countP_cons_of_pos (by simpa using hsought)] at honce
          have hnone : attributes.reverse.find? (·.type = type) = none := by
            rw [List.find?_eq_none]
            intro b hb
            exact List.countP_eq_zero.mp (Nat.le_zero.mp (Nat.le_of_succ_le_succ honce)) b
              (List.mem_reverse.mp hb)
          simp [hsought, hnone]
        · rw [List.countP_cons_of_neg (by simpa using hsought)] at honce
          simp [hsought, ih honce]
  rw [firstText?, lastText?, hsame _ honce]

/-- A name is left as it is if and only if every type of attribute stands once in it. -/
theorem eq_of_singleValued?_iff {name single : Name} (hsingle : name.singleValued? = some single) :
    single = name ↔ (name.attributes.map NameAttribute.type).Nodup := by
  simp only [singleValued?, Option.map_eq_some_iff] at hsingle
  obtain ⟨attributes, hplain, rfl⟩ := hsingle
  have hname : name = ofAttributes attributes :=
    congrArg Name.mk (relativeNames_of_plainAttributes? hplain)
  rw [hname, attributes_ofAttributes, ← NameAttribute.foldl_insert_eq_self_iff]
  constructor
  · intro hsame
    rw [← attributes_ofAttributes (attributes.foldl _ []), hsame, attributes_ofAttributes]
  · exact congrArg ofAttributes

end Name

end CertAuthority.X509
