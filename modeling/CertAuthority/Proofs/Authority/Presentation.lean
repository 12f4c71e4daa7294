import CertAuthority.Caller.Identity
import CertAuthority.Proofs.Authority.Profile
import CertAuthority.Proofs.X509.Trust

/-!
# Certificates that are presented

Whoever presents a certificate to an authority is asked for one that is read strictly, is a client's
and nobody's authority, has a good serial number, is valid now and was signed by the authority.  Of
a certificate that was issued all of this is certain but the last two, unless it is very long.
-/

namespace CertAuthority

open X509
open X509.StrictCertificate (Parts)

namespace Issuance

variable {a : Authority} {c : Candidate} {e : Extension}

/-- An extension of a certificate that is looked into is a sequence, and no other is critical but
the key's usage. -/
theorem acceptable_of_mem (hmem : e ∈ extensions a c) :
    e.oid = Oid.keyUsage ∨
      (e.oid ∈ StrictCertificate.examined ∧
        ∃ content, e.value = Asn1.encode Asn1.sequence content) ∨
      e.oid ∉ StrictCertificate.examined ∧ e.critical = false := by
  simp only [extensions, List.cons_append, List.mem_cons, List.mem_append, List.not_mem_nil,
    or_false] at hmem
  rcases hmem with rfl | hnames | rfl | rfl | rfl | rfl
  · exact .inr (.inr ⟨(by decide : Oid.authorityKeyIdentifier ∉ StrictCertificate.examined), rfl⟩)
  · unfold alternativeNames at hnames
    split at hnames
    · cases hnames
    · rw [List.mem_singleton.mp hnames]
      exact .inr (.inl ⟨(by decide : Oid.subjectAltName ∈ StrictCertificate.examined), _, rfl⟩)
  · exact .inl rfl
  · exact .inr (.inl ⟨by decide, _, rfl⟩)
  · exact .inr (.inr ⟨(by decide : Oid.subjectKeyIdentifier ∉ StrictCertificate.examined), rfl⟩)
  · exact .inr (.inl ⟨by decide, _, rfl⟩)

theorem areAcceptable_extensions (hlength : ∀ e ∈ extensions a c, e.value.length < 65536) :
    StrictCertificate.areAcceptable (extensions a c) = true := by
  rw [StrictCertificate.areAcceptable, List.all_eq_true]
  intro e hmem
  rcases acceptable_of_mem hmem with husage | ⟨hexamined, content, hvalue⟩ | ⟨hother, hcritical⟩
  · rw [if_pos husage]
  · -- No two extensions are of one type, so that this one stands alone.
    have hlong := hlength e hmem
    rw [hvalue] at hlong
    have hnested := @StrictCertificate.nested_encode Asn1.sequence content Unit
      (fun content => some ((), content.drop content.length)) () (by decide)
      ((Asn1.length_lt_length_encode Asn1.sequence content).trans hlong)
      (by rw [List.drop_length]) []
    rw [List.append_nil, ← hvalue] at hnested
    have honly := Extension.filter_of_nodup (nodup_extensions a c) hmem
    simp only [List.contains_iff_mem, hexamined, if_true, honly, hnested, List.length_singleton,
      Option.map_some, and_self, decide_true, ite_self]
  · simp only [List.contains_iff_mem, hother, if_false, hcritical, Bool.not_false, ite_self]

/-- What the authority says of clients and of authorities. -/
theorem valueOf_decided (hmem : e ∈ [keyUsage, purposes, subjectKeyIdentifier c, notAnAuthority])
    {content : Bytes} (hvalue : e.value = Asn1.encode Asn1.sequence content)
    (hlength : content.length < 65536) :
    StrictCertificate.valueOf (extensions a c) e.oid = some content := by
  have hfound : (extensions a c).find? (·.oid = e.oid) = some e := by
    rw [← List.head?_filter, Extension.filter_of_nodup (nodup_extensions a c)
      (List.mem_append_right _ hmem)]
    rfl
  have hread := StrictCertificate.expect_encode (show Asn1.sequence.toNat % 32 ≠ 31 by decide)
    hlength []
  rw [List.append_nil] at hread
  rw [StrictCertificate.valueOf, hfound, Option.bind_some, hvalue, hread]
  rfl

/-- The parts that a certificate was made of. -/
theorem exists_parts (a : Authority) (c : Candidate) {serial number written : Bytes}
    {first last : Int} (hnumber : Asn1.encodeUnsigned serial = Asn1.encode Asn1.integer number)
    (hwritten : (Validity.mk (.ofSeconds first) (.ofSeconds last)).encode? = some written) :
    ∃ p : Parts, p.serial = number ∧ p.extensions = extensions a c ∧
      (∀ signature, p.certificate signature = certificateParts a c serial written signature) ∧
      ∃ before after, (CertificateDate.ofSeconds first).encode? = some before ∧
        (CertificateDate.ofSeconds last).encode? = some after ∧ p.validity = before ++ after := by
  obtain ⟨algorithm, halgorithm⟩ := a.key.exists_signatureAlgorithm
  simp only [Validity.encode?, Option.bind_eq_bind, Option.bind_eq_some_iff] at hwritten
  obtain ⟨before, hbefore, after, hafter, hsome⟩ := hwritten
  cases hsome
  refine ⟨{
    serial := number
    algorithm := algorithm
    issuer := (a.name.relativeNames.map fun attributes =>
      Asn1.encode Asn1.set (attributes.flatMap NameAttribute.encode)).flatten
    validity := [before, after].flatten
    subject := (c.subject.relativeNames.map fun attributes =>
      Asn1.encode Asn1.set (attributes.flatMap NameAttribute.encode)).flatten
    publicKey := [c.keyAlgorithm.encode, Asn1.encodeBits c.key].flatten
    extensions := extensions a c }, rfl, rfl, fun signature => ?_, before, after, hbefore, hafter,
      by simp⟩
  rw [certificateParts, halgorithm, encodeBody, hnumber, halgorithm]
  rfl

/-- A certificate of the authority is read strictly, unless it is too long. -/
theorem read_parts {p : Parts} (hextensions : p.extensions = extensions a c) (signature : Bytes)
    (hlength : (p.certificate signature).flatten.length < 65536) :
    StrictCertificate.read (Asn1.encodeSequence (p.certificate signature)) =
      some (p.strict signature) := by
  have hbody : p.body.length < 65536 :=
    (List.sublist_flatten_of_mem (List.mem_cons_self ..)).length_le.trans_lt hlength
  have hwritten : (Asn1.encode (Asn1.context 3)
      (Asn1.encodeSequence (p.extensions.map Extension.encode))).length < 65536 :=
    (Asn1.length_lt_length_encodeSequence (by simp [Parts.written])).trans hbody
  have hlist := (Asn1.length_lt_length_encode _ _).trans hwritten
  have hvalues : ∀ e ∈ extensions a c, e.value.length < 65536 := by
    intro e hmem
    rw [← hextensions] at hmem
    have hwhole : e.encode.length < 65536 :=
      (Asn1.length_lt_length_encodeSequence (List.mem_map_of_mem hmem)).trans hlist
    have hvalue : (Asn1.encode Asn1.octetString e.value).length < 65536 :=
      (Asn1.length_lt_length_encodeSequence (by simp)).trans hwhole
    exact (Asn1.length_lt_length_encode Asn1.octetString e.value).trans hvalue
  refine Parts.read_certificate ?_ ?_ hlength
  · rw [hextensions]
    exact List.cons_ne_nil _ _
  · rw [hextensions]
    exact areAcceptable_extensions hvalues

/-- A certificate of the authority is a client's, and no authority's. -/
theorem isLeaf_strict {p : Parts} (hextensions : p.extensions = extensions a c)
    (signature : Bytes) :
    (p.strict signature).isLeaf = true ∧ (p.strict signature).isForClients = true := by
  have hconstraints : (p.strict signature).basicConstraints = some [] := by
    rw [Parts.strict, hextensions]
    exact valueOf_decided (e := notAnAuthority) (by simp) rfl (by decide)
  have hpurposes : (p.strict signature).purposes = some Oid.clientAuth.encode := by
    rw [Parts.strict, hextensions]
    exact valueOf_decided (e := purposes) (by simp) (by decide) (by decide)
  constructor
  · rw [StrictCertificate.isLeaf, hconstraints]
    rfl
  · rw [StrictCertificate.isForClients, hpurposes]
    decide

/-- So it is trusted while it is valid, if the authority has signed it. -/
theorem isTrusted_strict {p : Parts} (hextensions : p.extensions = extensions a c)
    (signature : Bytes) {first last seconds : Int} {before after : Bytes}
    (hbefore : (CertificateDate.ofSeconds first).encode? = some before)
    (hafter : (CertificateDate.ofSeconds last).encode? = some after)
    (hvalidity : p.validity = before ++ after) (anchor : StrictCertificate) :
    (p.strict signature).isTrusted anchor seconds = true ↔
      ((0 ≤ first ∧ first ≤ seconds ∧ seconds ≤ last) ∧
        (p.strict signature).issuer = anchor.subject) ∧
          (p.strict signature).isSignedBy anchor = true := by
  obtain ⟨hleaf, hclients⟩ := isLeaf_strict hextensions signature
  rw [← StrictCertificate.isValidAt_written (c := p.strict signature) hbefore hafter hvalidity]
  simp only [StrictCertificate.isTrusted, hleaf, hclients, Bool.and_true, Bool.and_eq_true,
    decide_eq_true_eq]

end Issuance

/-- Whether the certificate of an authority admits whoever presents a certificate in a given second:
the certificate is not too long, it has begun and goes on, and the authority has signed it. -/
structure X509.Certificate.Admitted (certificate : Certificate) (der authorityDer : Bytes)
    (seconds : Int) : Prop where
  short : der.length < 65540
  begun : 0 ≤ certificate.validity.notBefore.seconds ∧
    certificate.validity.notBefore.seconds ≤ seconds
  going : seconds ≤ certificate.validity.notAfter.seconds
  signed : ∃ anchor client, StrictCertificate.readAnchor authorityDer = some anchor ∧
    StrictCertificate.read der = some client ∧ client.issuer = anchor.subject ∧
      client.isSignedBy anchor = true

namespace CallerIdentity

variable {pem : String} {der authorityDer rest : Bytes} {certificate : Certificate} {now : Instant}
variable {caller : CallerIdentity}

/-- Whoever is read from a certificate has its name and its serial number. -/
theorem ofCertificate_eq_ok_iff (hread : Certificate.read der = some (certificate, rest)) :
    ofCertificate der = .ok caller ↔
      certificate.subject.commonName? = some caller.commonName ∧
        caller.serialNumber = some (SerialNumber.ofBytes certificate.serial) := by
  obtain ⟨name, serial?⟩ := caller
  simp only [ofCertificate, hread]
  cases certificate.subject.commonName? with
  | none => simp [untrusted]
  | some found => simp [verified, withSerial, eq_comm]

/-- Whoever presents a certificate is who is read from it, if it is trusted. -/
theorem ofClientCertificate_eq_ok_iff
    (hcontents : Pem.contentsOf pem Authority.certificateTag = .ok der) :
    ofClientCertificate pem authorityDer now = .ok caller ↔
      (∃ anchor client, StrictCertificate.readAnchor authorityDer = some anchor ∧
        StrictCertificate.readClient der = some client ∧
          client.isTrusted anchor now.seconds = true) ∧ ofCertificate der = .ok caller := by
  rw [ofClientCertificate, hcontents]
  dsimp only
  cases StrictCertificate.readAnchor authorityDer with
  | none => simp
  | some anchor =>
      cases StrictCertificate.readClient der with
      | none => simp [untrusted]
      | some client =>
          by_cases htrusted : client.isTrusted anchor now.seconds = true
          · simp [htrusted]
          · simp [htrusted, untrusted]

end CallerIdentity

namespace Issuance

variable {a : Authority} {c : Candidate} {days : Nat} {issuer : CertificateIssuer} {now : Instant}
variable {draw : Draw} {issued : IssuedCertificate} {number : Bytes}

/-- A certificate with a good serial number is trusted if and only if its authority admits it. -/
theorem exists_trusted_iff {p : Parts} (hextensions : p.extensions = extensions a c)
    {signature : Bytes} (hgood : (p.strict signature).hasGoodSerial = true) {first last : Int}
    {before after : Bytes} (hbefore : (CertificateDate.ofSeconds first).encode? = some before)
    (hafter : (CertificateDate.ofSeconds last).encode? = some after)
    (hvalidity : p.validity = before ++ after) {certificate : Certificate}
    (hdates : certificate.validity = ⟨.ofSeconds first, .ofSeconds last⟩) (authorityDer : Bytes)
    (seconds : Int) :
    (∃ anchor client, StrictCertificate.readAnchor authorityDer = some anchor ∧
        StrictCertificate.readClient (Asn1.encodeSequence (p.certificate signature)) =
          some client ∧ client.isTrusted anchor seconds = true) ↔
      certificate.Admitted (Asn1.encodeSequence (p.certificate signature)) authorityDer
        seconds := by
  have htrusted (anchor : StrictCertificate) :
      (p.strict signature).isTrusted anchor seconds = true ↔ _ :=
    isTrusted_strict hextensions signature hbefore hafter hvalidity anchor
  constructor
  · rintro ⟨anchor, client, hanchor, hclient, htrust⟩
    obtain ⟨hstrict, -⟩ := Option.filter_eq_some_iff.mp hclient
    -- The limit is a fact about what was read: a longer certificate is not read at all.
    have hshort : (p.certificate signature).flatten.length < 65536 := by
      by_contra hlong
      rw [Parts.read_of_le (not_lt.mp hlong)] at hstrict
      cases hstrict
    cases (read_parts hextensions signature hshort).symm.trans hstrict
    obtain ⟨⟨⟨hold, hbegun, hgoing⟩, hissuer⟩, hsigned⟩ := (htrusted anchor).mp htrust
    refine ⟨Asn1.length_encode_lt_iff.mpr hshort, ?_, ?_, anchor, _, hanchor, hstrict, hissuer,
      hsigned⟩
    · rw [hdates]
      exact ⟨hold, hbegun⟩
    · rw [hdates]
      exact hgoing
  · rintro ⟨hshort, hbegun, hgoing, anchor, client, hanchor, hstrict, hissuer, hsigned⟩
    rw [hdates] at hbegun hgoing
    have hread := read_parts hextensions signature (Asn1.length_encode_lt_iff.mp hshort)
    cases hread.symm.trans hstrict
    refine ⟨anchor, p.strict signature, hanchor, ?_, ?_⟩
    · rw [StrictCertificate.readClient, hread]
      exact Option.filter_eq_some_iff.mpr ⟨rfl, hgood⟩
    · exact (htrusted anchor).mpr ⟨⟨⟨hbegun.1, hbegun.2, hgoing⟩, hissuer⟩, hsigned⟩

/-- The serial number in a certificate is the content of the integer that was written; and if it is
a good one, whoever presents the certificate is let in if and only if the authority admits it. -/
theorem exists_admitted_of_issue (hissued : issue a c days issuer now draw = .ok issued)
    (hnumber : Asn1.encodeUnsigned draw.serial = Asn1.encode Asn1.integer number)
    (hgood : ∀ client : StrictCertificate, client.serial = number → client.hasGoodSerial = true) :
    ∃ der certificate, Pem.contentsOf issued.certificatePem Authority.certificateTag = .ok der ∧
      Certificate.read der = some (certificate, []) ∧ certificate.serial = number ∧
        ∀ authorityDer later caller,
          CallerIdentity.ofClientCertificate issued.certificatePem authorityDer later =
              .ok caller ↔
            certificate.Admitted der authorityDer later.seconds ∧
              CallerIdentity.ofCertificate der = .ok caller := by
  obtain ⟨written, signature, hwritten, -, hlength, hpem⟩ := exists_written_of_issue hissued
  obtain ⟨p, hserial, hextensions, hparts, before, after, hbefore, hafter, hvalidity⟩ :=
    exists_parts a c hnumber hwritten
  have hread := read_certificateParts hlength hnumber (Validity.read_encode? hwritten)
  have hcontents : Pem.contentsOf issued.certificatePem Authority.certificateTag =
      .ok (Asn1.encodeSequence (certificateParts a c draw.serial written signature)) := by
    rw [hpem]
    exact Pem.contentsOf_encodeUnix (by decide) (by decide) _
  refine ⟨_, _, hcontents, hread, rfl, fun authorityDer later caller => ?_⟩
  rw [CallerIdentity.ofClientCertificate_eq_ok_iff hcontents, ← hparts]
  exact and_congr_left fun _ =>
    exists_trusted_iff hextensions (hgood _ hserial) hbefore hafter hvalidity rfl _ _

end Issuance

end CertAuthority
