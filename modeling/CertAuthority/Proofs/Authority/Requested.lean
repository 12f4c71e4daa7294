import CertAuthority.Proofs.Authority.Profile

/-!
# What requesters choose of the extensions

Of all that a request asks for, the alternative names alone reach its certificate, and every one of
them does, though no check looks at them.  Two certificates for one subject and one key have the
same extensions if and only if their requests asked for the same names and were signed in ways that
go with the same kind of key.
-/

namespace CertAuthority

open X509
open Asn1 (Element)

theorem exists_of_mem_mapM {α β : Type} {f : α → Option β} {items : List α} {found : List β}
    (hfound : items.mapM f = some found) {b : β} (hb : b ∈ found) : ∃ a ∈ items, f a = some b := by
  induction items generalizing found with
  | nil =>
      cases hfound
      cases hb
  | cons a items ih =>
      simp only [List.mapM_cons, Option.bind_eq_bind, Option.bind_eq_some_iff, Option.pure_def,
        Option.some.injEq] at hfound
      obtain ⟨first, hfirst, rest, hrest, rfl⟩ := hfound
      rcases List.mem_cons.mp hb with rfl | hlater
      · exact ⟨a, List.mem_cons_self, hfirst⟩
      · obtain ⟨later, hmem, hlater⟩ := ih hrest hlater
        exact ⟨later, List.mem_cons_of_mem _ hmem, hlater⟩

theorem X509.Certificate.length_of_readExtensions {input : Bytes} {extensions : List Extension}
    (hread : readExtensions input = some extensions) {e : Extension} (he : e ∈ extensions) :
    e.value.length < 2 ^ 64 := by
  unfold readExtensions at hread
  split at hread
  · cases hread
    cases he
  · simp only [Option.bind_eq_bind, Option.bind_eq_some_iff, Prod.exists, Extension.readSequence,
      Option.pure_def, Option.some.injEq, Prod.mk.injEq] at hread
    obtain ⟨_, _, -, found, _, ⟨_, _, -, items, hall, rfl, -⟩, hlast⟩ := hread
    rw [Option.ite_none_right_eq_some] at hlast
    cases hlast.2
    obtain ⟨_, _, hone⟩ := Element.exists_read_of_all hall he
    exact Extension.length_of_read hone

theorem Authority.length_of_readCertificate {pem : String} {der : Bytes} {certificate : Certificate}
    (hread : readCertificate pem = .ok (der, certificate)) {e : Extension}
    (he : e ∈ certificate.extensions) : e.value.length < 2 ^ 64 := by
  unfold readCertificate at hread
  split at hread
  · cases hread
  · split at hread
    · cases hread
    · next found rest hfound =>
        cases hread
        simp only [Certificate.read, Option.bind_eq_bind, Option.bind_eq_some_iff, Option.pure_def,
          Option.some.injEq, Prod.mk.injEq, Prod.exists] at hfound
        obtain ⟨_, _, -, _, _, -, body, hbody, _, _, -, _, _, -, rfl, -⟩ := hfound
        simp only [Certificate.readBody, Option.bind_eq_bind, Option.bind_eq_some_iff,
          Option.pure_def, Option.some.injEq, Prod.exists] at hbody
        obtain ⟨_, _, -, _, _, -, _, _, -, _, _, -, _, _, -, _, _, -, _, _, -, _, _, -, _, -,
          extensions, hextensions, rfl⟩ := hbody
        exact Certificate.length_of_readExtensions hextensions he

namespace X509.GeneralName

/-- A name that is read back as it was written. -/
def Proper : GeneralName → Prop
  | .otherName type _ => type.Proper
  | .email name => Bytes.isAscii name = true
  | .dns name => Bytes.isAscii name = true
  | .uri name => Bytes.isAscii name = true
  | .ip _ => True
  | .other _ => False

/-- What is certain of a name that was read. -/
theorem proper_of_ofElement {e : Element} {name : GeneralName} (hread : ofElement e = some name) :
    name.Proper ∨ ∃ tag, name = .other tag := by
  unfold ofElement at hread
  dsimp only at hread
  split at hread
  · obtain ⟨⟨type, value⟩, hfound, heq⟩ := Option.map_eq_some_iff.mp hread
    cases heq
    exact .inl (Oid.proper_of_read hfound)
  · repeat' split at hread
    all_goals cases hread
    -- Three kinds of text, an address, and what no certificate takes.
    · exact .inl ‹_›
    · exact .inl ‹_›
    · exact .inl ‹_›
    · exact .inl trivial
    · exact .inr ⟨_, rfl⟩

theorem read_of_ofElement {identifier : UInt8} {content : Bytes} {name : GeneralName}
    (hname : ofElement ⟨identifier, content, Asn1.encode identifier content⟩ = some name)
    (hidentifier : identifier.toNat % 32 ≠ 31)
    (hlength : (Asn1.encode identifier content).length < 2 ^ 64) (rest : Bytes) :
    read (Asn1.encode identifier content ++ rest) = some (name, rest) := by
  have hcontent := (Asn1.length_lt_length_encode identifier content).trans hlength
  rw [read, Element.read_encode hidentifier hcontent]
  simp only [Option.bind_eq_bind, Option.bind_some, hname, Option.pure_def]

theorem read_encode {name : GeneralName} (hproper : name.Proper)
    (hlength : name.encode.length < 2 ^ 64) (rest : Bytes) :
    read (name.encode ++ rest) = some (name, rest) := by
  cases name with
  | otherName type value =>
      have htype : type.encode.length < 2 ^ 64 := by
        refine Nat.lt_of_le_of_lt ?_
          ((Asn1.length_lt_length_encode (Asn1.context 0) (type.encode ++ value)).trans hlength)
        rw [List.length_append]
        exact Nat.le_add_right _ _
      refine read_of_ofElement ?_ (by decide) hlength rest
      simp only [ofElement, if_true, Oid.read_encode hproper htype value, Option.map_some]
  | email text =>
      have hascii : Bytes.isAscii text = true := hproper
      refine read_of_ofElement ?_ (by decide) hlength rest
      simp [ofElement, Asn1.context, Asn1.contextPrimitive, hascii]
  | dns text =>
      have hascii : Bytes.isAscii text = true := hproper
      refine read_of_ofElement ?_ (by decide) hlength rest
      simp [ofElement, Asn1.context, Asn1.contextPrimitive, hascii]
  | uri text =>
      have hascii : Bytes.isAscii text = true := hproper
      refine read_of_ofElement ?_ (by decide) hlength rest
      simp [ofElement, Asn1.context, Asn1.contextPrimitive, hascii]
  | ip octets =>
      refine read_of_ofElement ?_ (by decide) hlength rest
      simp [ofElement, Asn1.context, Asn1.contextPrimitive]
  | other tag => exact hproper.elim

theorem readSequence_written {names : List GeneralName} (hproper : ∀ name ∈ names, name.Proper)
    (hlength : (Asn1.encodeSequence (names.map encode)).length < 2 ^ 64) :
    readSequence (Asn1.encodeSequence (names.map encode)) = some names := by
  have hcontent := (Asn1.length_lt_length_encode Asn1.sequence _).trans hlength
  have hitem : ∀ name ∈ names, ∀ rest, read (name.encode ++ rest) = some (name, rest) := by
    intro name hname
    exact read_encode (hproper name hname)
      ((Asn1.length_lt_length_encodeSequence (List.mem_map_of_mem hname)).trans hlength)
  have hall : Element.all read (names.map encode).flatten = some names := by
    refine Element.all_written rfl (fun name _ => ?_) hitem
    cases name <;> exact List.cons_ne_nil _ _
  have hread := Element.expect_encode (show Asn1.sequence.toNat % 32 ≠ 31 by decide) hcontent []
  rw [List.append_nil] at hread
  rw [readSequence, Asn1.encodeSequence, hread]
  simp only [Option.bind_eq_bind, Option.bind_some, hall]

end X509.GeneralName

namespace Candidate

theorem proper_of_alternativeName? {e : Element} {name written : GeneralName}
    (hread : GeneralName.ofElement e = some name) (hwritten : alternativeName? name = some written) :
    written.Proper := by
  have hproper : name.Proper := by
    rcases GeneralName.proper_of_ofElement hread with hproper | ⟨tag, rfl⟩
    · exact hproper
    · cases hwritten
  cases name with
  | otherName type value =>
      simp only [alternativeName?, Option.bind_eq_bind, Option.bind_eq_some_iff, Prod.exists]
        at hwritten
      obtain ⟨_, _, -, _, _, -, hlast⟩ := hwritten
      rw [Option.ite_none_right_eq_some] at hlast
      cases hlast.2
      exact hproper
  | email text | dns text | uri text =>
      cases hwritten
      exact hproper
  | ip octets =>
      simp only [alternativeName?, Option.ite_none_right_eq_some, Option.some.injEq] at hwritten
      rw [← hwritten.2]
      trivial
  | other tag => cases hwritten

/-- An extension of any other type is granted for nothing. -/
theorem eq_nil_of_granted? {e : Extension} {names : List GeneralName}
    (hgranted : granted? e = some names) (htype : e.oid ≠ Oid.subjectAltName) : names = [] := by
  rw [granted?, if_neg htype] at hgranted
  repeat' split at hgranted
  all_goals cases hgranted
  all_goals rfl

theorem proper_of_granted? {e : Extension} {names : List GeneralName}
    (hgranted : granted? e = some names) {name : GeneralName} (hname : name ∈ names) :
    name.Proper := by
  by_cases htype : e.oid = Oid.subjectAltName
  · simp only [granted?, if_pos htype, Option.bind_eq_bind, Option.bind_eq_some_iff] at hgranted
    obtain ⟨found, hfound, hmapped⟩ := hgranted
    obtain ⟨source, hsource, hwritten⟩ := exists_of_mem_mapM hmapped hname
    simp only [GeneralName.readSequence, Option.bind_eq_bind, Option.bind_eq_some_iff,
      Prod.exists] at hfound
    obtain ⟨_, _, -, hall⟩ := hfound
    obtain ⟨_, _, hread⟩ := Element.exists_read_of_all hall hsource
    simp only [GeneralName.read, Option.bind_eq_bind, Option.bind_eq_some_iff, Option.pure_def,
      Option.some.injEq, Prod.mk.injEq, Prod.exists] at hread
    obtain ⟨element, _, -, _, helement, rfl, -⟩ := hread
    exact proper_of_alternativeName? helement hwritten
  · rw [eq_nil_of_granted? hgranted htype] at hname
    cases hname

end Candidate

/-- The alternative names that a request asks for; nothing if they cannot be granted. -/
def X509.Request.requestedNames? (request : Request) : Option (List GeneralName) :=
  (request.requestedExtensions.mapM Candidate.granted?).map List.flatten

/-- The alternative names in a certificate, which has none without an extension for them. -/
def X509.Certificate.alternativeNames? (certificate : Certificate) : Option (List GeneralName) :=
  match Extension.unique? certificate.extensions Oid.subjectAltName with
  | some e => GeneralName.readSequence e.value
  | none => some []

/-- The extension of a certificate that identifies its key. -/
def X509.Certificate.keyIdentifier? (certificate : Certificate) : Option Extension :=
  Extension.unique? certificate.extensions Oid.subjectKeyIdentifier

/-- Whether an extension is of a type that neither a request's names nor its key can change. -/
def X509.Extension.isFixed (e : Extension) : Bool :=
  e.oid ≠ Oid.subjectAltName ∧ e.oid ≠ Oid.subjectKeyIdentifier

namespace X509.Extension

theorem mem_of_unique? {extensions : List Extension} {oid : Oid} {e : Extension}
    (hunique : unique? extensions oid = some e) : e ∈ extensions ∧ e.oid = oid := by
  unfold unique? at hunique
  split at hunique
  · next found hfilter =>
      cases hunique
      have hmem : e ∈ extensions.filter (·.oid = oid) := by
        rw [hfilter]
        exact List.mem_cons_self
      simpa using hmem
  · cases hunique

theorem unique?_eq_some_iff {extensions : List Extension}
    (hnodup : (extensions.map Extension.oid).Nodup) {oid : Oid} {e : Extension} :
    unique? extensions oid = some e ↔ e ∈ extensions ∧ e.oid = oid := by
  constructor
  · exact mem_of_unique?
  · rintro ⟨hmem, rfl⟩
    exact unique?_of_nodup hnodup hmem

/-- Where no type is repeated, the order of the extensions does not matter. -/
theorem unique?_congr {first second : List Extension} (hfirst : (first.map Extension.oid).Nodup)
    (hsecond : (second.map Extension.oid).Nodup) (hsame : ∀ e, e ∈ first ↔ e ∈ second) (oid : Oid) :
    unique? first oid = unique? second oid := by
  ext e
  rw [unique?_eq_some_iff hfirst, unique?_eq_some_iff hsecond, hsame e]

end X509.Extension

namespace Issuance

variable {a : Authority} {c d : Candidate} {request : Request} {certificate : Certificate}

theorem unique?_alternativeNames_eq_none (hnone : c.alternativeNames = []) :
    Extension.unique? (extensions a c) Oid.subjectAltName = none := by
  rw [Option.eq_none_iff_forall_ne_some]
  intro e hunique
  obtain ⟨hmem, htype⟩ := Extension.mem_of_unique? hunique
  simp only [extensions, alternativeNames, hnone, List.isEmpty_nil, if_true, List.cons_append,
    List.nil_append, List.mem_cons, List.not_mem_nil, or_false] at hmem
  rcases hmem with rfl | rfl | rfl | rfl | rfl
  · exact absurd htype (by decide : Oid.authorityKeyIdentifier ≠ Oid.subjectAltName)
  · exact absurd htype (by decide : Oid.keyUsage ≠ Oid.subjectAltName)
  · exact absurd htype (by decide : Oid.extendedKeyUsage ≠ Oid.subjectAltName)
  · exact absurd htype (by decide : Oid.subjectKeyIdentifier ≠ Oid.subjectAltName)
  · exact absurd htype (by decide : Oid.basicConstraints ≠ Oid.subjectAltName)

theorem unique?_alternativeNames (hsome : c.alternativeNames ≠ []) :
    Extension.unique? (extensions a c) Oid.subjectAltName =
      some ⟨Oid.subjectAltName, c.subject.relativeNames.isEmpty,
        Asn1.encodeSequence (c.alternativeNames.map GeneralName.encode)⟩ := by
  refine (Extension.unique?_eq_some_iff (nodup_extensions a c)).mpr ⟨?_, rfl⟩
  rw [extensions, alternativeNames, if_neg (by simpa using hsome)]
  simp

theorem keyIdentifier?_extensions :
    Extension.unique? (extensions a c) Oid.subjectKeyIdentifier = some (subjectKeyIdentifier c) :=
  unique?_decided (e := subjectKeyIdentifier c) (by simp)

theorem filter_isFixed : (extensions a c).filter Extension.isFixed =
    [authorityKeyIdentifier a, keyUsage, purposes, notAnAuthority] := by
  have hauthority : (authorityKeyIdentifier a).isFixed = true := rfl
  have husage : keyUsage.isFixed = true := rfl
  have hpurposes : purposes.isFixed = true := rfl
  have hsubject : (subjectKeyIdentifier c).isFixed = false := rfl
  have hconstraints : notAnAuthority.isFixed = true := rfl
  have hnames : (alternativeNames c).filter Extension.isFixed = [] := by
    rcases alternativeNames_eq_or c with hnone | ⟨e, hone, htype⟩
    · rw [hnone, List.filter_nil]
    · simp [hone, Extension.isFixed, htype]
  simp only [extensions, List.cons_append, List.filter_cons, List.filter_append, List.filter_nil,
    hnames, hauthority, husage, hpurposes, hsubject, hconstraints, if_true, Bool.false_eq_true,
    if_false, List.nil_append]

/-- The names of a certificate are read as its request asked for them. -/
theorem Holds.alternativeNames? (hholds : Holds a c certificate) (hfrom : c.IsFrom request)
    (hlength : ∀ e ∈ certificate.extensions, e.value.length < 2 ^ 64) :
    certificate.alternativeNames? = request.requestedNames? := by
  rw [Request.requestedNames?, hfrom.names]
  rw [hholds.extensions] at hlength
  unfold Certificate.alternativeNames?
  rw [hholds.extensions]
  by_cases hnone : c.alternativeNames = []
  · rw [unique?_alternativeNames_eq_none hnone, hnone]
  · have hunique := unique?_alternativeNames (a := a) hnone
    rw [hunique]
    refine GeneralName.readSequence_written ?_
      (hlength _ (Extension.mem_of_unique? hunique).1)
    intro name hname
    obtain ⟨granted, hgranted, hflat⟩ := Option.map_eq_some_iff.mp hfrom.names
    rw [← hflat] at hname
    obtain ⟨names, hnames, hname⟩ := List.mem_flatten.mp hname
    obtain ⟨e, -, hone⟩ := exists_of_mem_mapM hgranted hnames
    exact Candidate.proper_of_granted? hone hname

end Issuance

/-- What a request without alternative names gets. -/
theorem Candidate.IsFrom.alternativeNames_eq_nil {c : Candidate} {request : Request}
    (hfrom : c.IsFrom request)
    (hunasked : ∀ e ∈ request.requestedExtensions, e.oid ≠ Oid.subjectAltName) :
    c.alternativeNames = [] := by
  obtain ⟨granted, hgranted, hflat⟩ := Option.map_eq_some_iff.mp hfrom.names
  rw [← hflat, List.flatten_eq_nil_iff]
  intro names hnames
  obtain ⟨e, he, hone⟩ := exists_of_mem_mapM hgranted hnames
  exact eq_nil_of_granted? hone (hunasked e he)

/-- How two certificates compare that an authority signed for requests of one subject and key. -/
structure Resembles (a : Authority) (r s : Request) (x y : Certificate) : Prop where
  version : x.version = y.version
  issuer : a.name.Proper → x.issuer = y.issuer
  subject : x.subject = y.subject
  algorithm : x.algorithm = y.algorithm
  /-- The key is certified alike if the signatures of the requests go with one kind of key. -/
  publicKey : Candidate.keyAlgorithm? r.algorithm.oid = Candidate.keyAlgorithm? s.algorithm.oid →
    x.publicKey = y.publicKey ∧ x.keyIdentifier? = y.keyIdentifier?
  /-- Whatever the requests ask for, all extensions are the same but names and key identifier. -/
  fixed : x.extensions.filter Extension.isFixed = y.extensions.filter Extension.isFixed
  /-- The names are those that were asked for, and none if none were. -/
  names : x.alternativeNames? = r.requestedNames? ∧ y.alternativeNames? = s.requestedNames?
  unasked : (∀ e ∈ r.requestedExtensions, e.oid ≠ Oid.subjectAltName) →
    ∀ e ∈ x.extensions, e.oid ≠ Oid.subjectAltName
  /-- So the extensions are the same if and only if both are. -/
  same : (∀ e, e ∈ x.extensions ↔ e ∈ y.extensions) ↔
    r.requestedNames? = s.requestedNames? ∧ x.keyIdentifier? = y.keyIdentifier?

theorem Issuance.Holds.resembles {a : Authority} {r s : Request} {c d : Candidate}
    {x y : Certificate} (hx : Holds a c x) (hy : Holds a d y) (hc : c.IsFrom r) (hd : d.IsFrom s)
    (hproper : c.subject.Proper) (hsubject : r.subject = s.subject)
    (hkey : r.publicKey = s.publicKey)
    (hxlength : ∀ e ∈ x.extensions, e.value.length < 2 ^ 64)
    (hylength : ∀ e ∈ y.extensions, e.value.length < 2 ^ 64) : Resembles a r s x y := by
  have hsame : c.subject = d.subject := by
    have hsubjects := hd.subject
    rw [← hsubject, hc.subject] at hsubjects
    exact Option.some.inj hsubjects
  have hbits : c.key = d.key := by rw [hc.key, hd.key, hkey]
  have hxnames := hx.alternativeNames? hc hxlength
  have hynames := hy.alternativeNames? hd hylength
  have hxidentifier : x.keyIdentifier? = some (subjectKeyIdentifier c) := by
    rw [Certificate.keyIdentifier?, hx.extensions, keyIdentifier?_extensions]
  have hyidentifier : y.keyIdentifier? = some (subjectKeyIdentifier d) := by
    rw [Certificate.keyIdentifier?, hy.extensions, keyIdentifier?_extensions]
  refine ⟨by rw [hx.version, hy.version], fun hname => by rw [hx.issuer hname, hy.issuer hname],
    ?_, by rw [hx.algorithm, hy.algorithm], ?_, ?_, ⟨hxnames, hynames⟩, ?_, ?_⟩
  · rw [hx.subject hproper, hy.subject (hsame ▸ hproper), hsame]
  · intro halgorithm
    rw [hc.keyAlgorithm, hd.keyAlgorithm, Option.some.injEq] at halgorithm
    have hinfo : c.publicInfo = d.publicInfo := by
      rw [Candidate.publicInfo, Candidate.publicInfo, halgorithm, hbits]
    rw [hx.publicKey, hy.publicKey, hxidentifier, hyidentifier, subjectKeyIdentifier,
      subjectKeyIdentifier, hinfo, halgorithm, hbits]
    exact ⟨rfl, rfl⟩
  · rw [hx.extensions, hy.extensions, filter_isFixed, filter_isFixed]
  · intro hunasked e he htype
    rw [hx.extensions] at he
    have hnone := unique?_alternativeNames_eq_none (a := a) (hc.alternativeNames_eq_nil hunasked)
    rw [(Extension.unique?_eq_some_iff (nodup_extensions a c)).mpr ⟨he, htype⟩] at hnone
    cases hnone
  · constructor
    · intro hmem
      have hunique := Extension.unique?_congr (by rw [hx.extensions]; exact nodup_extensions a c)
        (by rw [hy.extensions]; exact nodup_extensions a d) hmem
      refine ⟨?_, hunique _⟩
      rw [← hxnames, ← hynames, Certificate.alternativeNames?, Certificate.alternativeNames?,
        hunique]
    · rintro ⟨hnames, hidentifier⟩ e
      rw [Request.requestedNames?, Request.requestedNames?, hc.names, hd.names,
        Option.some.injEq] at hnames
      rw [hxidentifier, hyidentifier, Option.some.injEq] at hidentifier
      rw [hx.extensions, hy.extensions, Issuance.extensions, Issuance.extensions,
        Issuance.alternativeNames, Issuance.alternativeNames, hnames, hsame, hidentifier]

/-- What is certain of two certificates that an authority signs. -/
structure Authority.Concession (a : Authority) : Prop where
  /-- Two texts that were validated and ask for certificates of one subject and one key. -/
  signed : ∀ first second csr other days nextDays issuer nextIssuer now later draw next issued
      reissued,
    Csr.validate first = .ok csr → Csr.validate second = .ok other →
    Issuance.sign a first days issuer now draw = .ok issued →
    Issuance.sign a second nextDays nextIssuer later next = .ok reissued →
      ∃ r s, Csr.read first = .ok r ∧ Csr.read second = .ok s ∧
        (r.subject = s.subject → r.publicKey = s.publicKey →
          ∃ der x nextDer y, Authority.readCertificate issued.certificatePem = .ok (der, x) ∧
            Authority.readCertificate reissued.certificatePem = .ok (nextDer, y) ∧
            Resembles a r s x y)

/-- What a signed certificate is made of, and the request that it was signed for. -/
theorem Issuance.exists_of_sign {a : Authority} {csrPem : String} {csr : ValidatedCsr} {days : Nat}
    {issuer : CertificateIssuer} {now : Instant} {draw : Draw} {issued : IssuedCertificate}
    (hvalid : Csr.validate csrPem = .ok csr)
    (hsigned : sign a csrPem days issuer now draw = .ok issued) :
    ∃ request c der certificate, Csr.read csrPem = .ok request ∧ c.IsFrom request ∧
      c.subject.Proper ∧ Authority.readCertificate issued.certificatePem = .ok (der, certificate) ∧
      Holds a c certificate ∧ ∀ e ∈ certificate.extensions, e.value.length < 2 ^ 64 := by
  obtain ⟨request, hread, -⟩ := Csr.exists_checked_of_validate hvalid
  obtain ⟨c, hcandidate, hissued⟩ := exists_issue_of_sign hsigned
  obtain ⟨der, certificate, hcertificate, -, hholds⟩ := holds_of_issue hissued
  exact ⟨request, c, der, certificate, hread, (Candidate.read?_eq_some_iff hread).mp hcandidate,
    (Candidate.subject_of_read? hread hcandidate).1, hcertificate, hholds,
    fun _ => Authority.length_of_readCertificate hcertificate⟩

/-- Requesters choose the alternative names of their certificates, and by the way in which they sign
what identifies their keys; they choose nothing else of the extensions. -/
theorem Authority.concession (a : Authority) : a.Concession where
  signed := by
    intro first second csr other days nextDays issuer nextIssuer now later draw next issued reissued
      hfirst hsecond hissued hreissued
    obtain ⟨r, c, der, x, hr, hc, hproper, hx, hxholds, hxlength⟩ :=
      Issuance.exists_of_sign hfirst hissued
    obtain ⟨s, d, nextDer, y, hs, hd, -, hy, hyholds, hylength⟩ :=
      Issuance.exists_of_sign hsecond hreissued
    refine ⟨r, s, hr, hs, fun hsubject hkey => ⟨der, x, nextDer, y, hx, hy, ?_⟩⟩
    exact hxholds.resembles hyholds hc hd hproper hsubject hkey hxlength hylength

end CertAuthority
