import CertAuthority.Authority.Issuance
import CertAuthority.Proofs.Pem
import CertAuthority.Proofs.X509.Parts
import CertAuthority.Proofs.X509.Validity

/-!
# Certificates are read back as they were written

A certificate that is not too long for one element is read back with everything that was written
into it, and nothing is left over.  Only the names are not quite what was written: what cannot be
read of them is lost.
-/

namespace CertAuthority

open X509
open Asn1 (Element)

namespace Issuance

variable {a : Authority} {c : Candidate} {draw : Draw} {written : Bytes}

/-- The last part of what is signed. -/
def encodeExtensions (a : Authority) (c : Candidate) : Bytes :=
  Asn1.encode (Asn1.context 3) (Asn1.encodeSequence ((extensions a c).map Extension.encode))

/-- The parts of what is signed. -/
def bodyParts (a : Authority) (c : Candidate) (serial written : Bytes) : List Bytes :=
  [Asn1.encode (Asn1.context 0) (Asn1.encodeNat 2), Asn1.encodeUnsigned serial,
    a.key.signatureAlgorithm, a.name.encode, written, c.subject.encode, c.publicInfo,
    encodeExtensions a c]

/-- The parts of a certificate. -/
def certificateParts (a : Authority) (c : Candidate) (serial written signature : Bytes) :
    List Bytes :=
  [encodeBody a c serial written, a.key.signatureAlgorithm, Asn1.encodeBits signature]

/-- The signed part of a certificate as it is read. -/
def bodyOf (a : Authority) (c : Candidate) (serial written number : Bytes) (validity : Validity) :
    Certificate where
  version := 2
  serial := number
  issuer := a.name.reread
  validity
  subject := c.subject.reread
  publicKey := ⟨c.keyAlgorithm.algorithm, c.key, c.publicInfo⟩
  extensions := extensions a c
  body := encodeBody a c serial written
  algorithm := default
  signature := []

theorem proper_extensions (a : Authority) (c : Candidate) :
    ∀ e ∈ extensions a c, e.oid.Proper := by
  intro e he
  simp only [extensions, List.cons_append, List.mem_cons, List.mem_append, List.not_mem_nil,
    or_false] at he
  rcases he with rfl | hnames | rfl | rfl | rfl | rfl
  · exact (by decide : Oid.authorityKeyIdentifier.Proper)
  · unfold alternativeNames at hnames
    split at hnames
    · cases hnames
    · rw [List.mem_singleton.mp hnames]
      exact (by decide : Oid.subjectAltName.Proper)
  · exact (by decide : Oid.keyUsage.Proper)
  · exact (by decide : Oid.extendedKeyUsage.Proper)
  · exact (by decide : Oid.subjectKeyIdentifier.Proper)
  · exact (by decide : Oid.basicConstraints.Proper)

theorem readVersion_written (rest : Bytes) :
    Certificate.readVersion (Asn1.encode (Asn1.context 0) (Asn1.encodeNat 2) ++ rest) =
      some (2, rest) := by
  have hhead : (Asn1.encode (Asn1.context 0) (Asn1.encodeNat 2) ++ rest).head? =
      some (Asn1.context 0) :=
    rfl
  have hread : Element.expect (Asn1.context 0)
      (Asn1.encode (Asn1.context 0) (Asn1.encodeNat 2) ++ rest) = some (Asn1.encodeNat 2, rest) :=
    Element.expect_encode (by decide) (by decide) rest
  have hnumber : readNat32 (Asn1.encodeNat 2) = some (2, []) := by decide
  simp only [Certificate.readVersion, Element.expectOptional, if_pos hhead, hread,
    Option.map_some, Option.bind_eq_bind, Option.bind_some, hnumber, Option.pure_def]

theorem skipUniqueIds_written (a : Authority) (c : Candidate) :
    Certificate.skipUniqueIds (encodeExtensions a c) = some (encodeExtensions a c) :=
  rfl

theorem readExtensions_written (hlength : (encodeExtensions a c).length < 2 ^ 64) :
    Certificate.readExtensions (encodeExtensions a c) = some (extensions a c) := by
  have hinner := (Asn1.length_lt_length_encode (Asn1.context 3) _).trans hlength
  have hread := Element.expect_encode (show (Asn1.context 3).toNat % 32 ≠ 31 by decide) hinner []
  have hsequence := Extension.readSequence_encode (proper_extensions a c) hinner []
  rw [List.append_nil] at hread hsequence
  rw [Certificate.readExtensions, encodeExtensions, if_neg (by simp [Asn1.encode])]
  simp only [Option.bind_eq_bind, hread, Option.bind_some, hsequence]
  rfl

/-- What is signed is read back. -/
theorem readBody_encodeBody {serial number : Bytes} {validity : Validity}
    (hlength : (encodeBody a c serial written).length < 2 ^ 64)
    (hnumber : Asn1.encodeUnsigned serial = Asn1.encode Asn1.integer number)
    (hvalidity : ∀ rest, Validity.read (written ++ rest) = some (validity, rest)) :
    Certificate.readBody (encodeBody a c serial written) =
      some (bodyOf a c serial written number validity) := by
  have hpart : ∀ part ∈ bodyParts a c serial written, part.length < 2 ^ 64 := by
    intro part hpart
    exact (Asn1.length_lt_length_encodeSequence hpart).trans hlength
  have hcontent : (bodyParts a c serial written).flatten.length < 2 ^ 64 :=
    (Asn1.length_lt_length_encode Asn1.sequence _).trans hlength
  have hwhole : Element.expect Asn1.sequence (encodeBody a c serial written) =
      some ((bodyParts a c serial written).flatten, []) := by
    rw [← List.append_nil (encodeBody a c serial written)]
    exact Element.expect_encode (by decide) hcontent []
  have hserial (rest : Bytes) : Element.expect Asn1.integer
      (Asn1.encodeUnsigned serial ++ rest) = some (number, rest) := by
    have hlong := hpart (Asn1.encodeUnsigned serial) (by simp [bodyParts])
    rw [hnumber] at hlong ⊢
    exact Element.expect_encode (by decide)
      ((Asn1.length_lt_length_encode Asn1.integer number).trans hlong) rest
  simp only [bodyParts, List.forall_mem_cons] at hpart
  obtain ⟨-, -, -, hissuer, -, hsubject, hkey, hextensions, -⟩ := hpart
  have hkeyRead := PublicKeyInfo.read_encodeKey hkey
  simp only [Certificate.readBody, hwhole, bodyParts, List.flatten_cons, List.flatten_nil,
    List.append_nil, Option.bind_eq_bind, Option.bind_some, readVersion_written, hserial,
    SigningKey.read_signatureAlgorithm, Name.read_encode hissuer, hvalidity,
    Name.read_encode hsubject, Candidate.publicInfo, hkeyRead, skipUniqueIds_written,
    readExtensions_written hextensions, Option.pure_def]
  rfl

/-- A certificate is read back. -/
theorem read_certificateParts {serial number signature : Bytes} {validity : Validity}
    (hlength : (certificateParts a c serial written signature).flatten.length < 2 ^ 64)
    (hnumber : Asn1.encodeUnsigned serial = Asn1.encode Asn1.integer number)
    (hvalidity : ∀ rest, Validity.read (written ++ rest) = some (validity, rest)) :
    Certificate.read (Asn1.encodeSequence (certificateParts a c serial written signature)) =
      some ({ bodyOf a c serial written number validity with
        algorithm := a.key.signatureMark, signature }, []) := by
  have hpart : ∀ part ∈ certificateParts a c serial written signature, part.length < 2 ^ 64 := by
    intro part hpart
    exact (List.sublist_flatten_of_mem hpart).length_le.trans_lt hlength
  have hwhole : Element.expect Asn1.sequence
      (Asn1.encodeSequence (certificateParts a c serial written signature)) =
        some ((certificateParts a c serial written signature).flatten, []) := by
    rw [← List.append_nil (Asn1.encodeSequence _)]
    exact Element.expect_encode (by decide) hlength []
  simp only [certificateParts, List.forall_mem_cons] at hpart
  obtain ⟨hbody, -, hsignature, -⟩ := hpart
  have hbodyRead (rest : Bytes) : Element.read (encodeBody a c serial written ++ rest) =
      some (⟨Asn1.sequence, (bodyParts a c serial written).flatten,
        encodeBody a c serial written⟩, rest) :=
    Element.read_encode (by decide) ((Asn1.length_lt_length_encode Asn1.sequence _).trans hbody)
      rest
  rw [Certificate.read, hwhole]
  simp only [certificateParts, List.flatten_cons, List.flatten_nil, Option.bind_eq_bind,
    Option.bind_some, hbodyRead, readBody_encodeBody hbody hnumber hvalidity,
    SigningKey.read_signatureAlgorithm, Asn1.readBits_encodeBits hsignature, Option.pure_def]

/-- Only a certificate that is not too long is read. -/
theorem length_of_read {der rest : Bytes} {certificate : Certificate}
    (hder : encodeCertificate a c written draw = some der)
    (hread : Certificate.read der = some (certificate, rest)) :
    ∃ signature, a.key.sign? draw.nonce (encodeBody a c draw.serial written) = some signature ∧
      der = Asn1.encodeSequence (certificateParts a c draw.serial written signature) ∧
      (certificateParts a c draw.serial written signature).flatten.length < 2 ^ 64 := by
  simp only [encodeCertificate, Option.map_eq_some_iff] at hder
  obtain ⟨signature, hsignature, rfl⟩ := hder
  refine ⟨signature, hsignature, rfl, ?_⟩
  rw [Asn1.encodeSequence, ← List.append_nil (Asn1.encode Asn1.sequence _)] at hread
  simp only [Certificate.read, Option.bind_eq_bind, Option.bind_eq_some_iff, Prod.exists] at hread
  obtain ⟨content, after, hcontent, -⟩ := hread
  exact (Element.of_expect_encode hcontent).1

/-- What a certificate of an authority holds of the authority and of its candidate. -/
structure Holds (a : Authority) (c : Candidate) (certificate : Certificate) : Prop where
  version : certificate.version = 2
  issuer : a.name.Proper → certificate.issuer = a.name
  subject : c.subject.Proper → certificate.subject = c.subject
  publicKey : certificate.publicKey = ⟨c.keyAlgorithm.algorithm, c.key, c.publicInfo⟩
  extensions : certificate.extensions = extensions a c
  algorithm : certificate.algorithm = a.key.signatureMark
  signature : ∃ nonce, a.key.sign? nonce certificate.body = some certificate.signature

theorem exists_holds {validity : Validity} {signature : Bytes}
    (hlength : (certificateParts a c draw.serial written signature).flatten.length < 2 ^ 64)
    (hvalidity : ∀ rest, Validity.read (written ++ rest) = some (validity, rest))
    (hsigned : a.key.sign? draw.nonce (encodeBody a c draw.serial written) = some signature) :
    ∃ certificate, Certificate.read
        (Asn1.encodeSequence (certificateParts a c draw.serial written signature)) =
          some (certificate, []) ∧
      certificate.validity = validity ∧ Holds a c certificate := by
  have hbody : (encodeBody a c draw.serial written).length < 2 ^ 64 :=
    (List.sublist_flatten_of_mem List.mem_cons_self).length_le.trans_lt hlength
  have hpart : ∀ part ∈ bodyParts a c draw.serial written, part.length < 2 ^ 64 := by
    intro part hpart
    exact (Asn1.length_lt_length_encodeSequence hpart).trans hbody
  have hissuer : a.name.encode.length < 2 ^ 64 := hpart _ (by simp [bodyParts])
  have hsubject : c.subject.encode.length < 2 ^ 64 := hpart _ (by simp [bodyParts])
  refine ⟨_, read_certificateParts hlength rfl hvalidity, rfl, ?_⟩
  exact {
    version := rfl
    issuer := fun hproper => hproper.reread_eq hissuer
    subject := fun hproper => hproper.reread_eq hsubject
    publicKey := rfl
    extensions := rfl
    algorithm := rfl
    signature := ⟨draw.nonce, hsigned⟩ }

section Issue

variable {days : Nat} {issuer : CertificateIssuer} {now : Instant} {issued : IssuedCertificate}

theorem date_eq_of_dateOf {t : Instant} {date : CertificateDate} (hdate : dateOf t = .ok date) :
    date = .ofSeconds t.seconds := by
  unfold dateOf at hdate
  split at hdate
  · cases hdate
  · cases hdate
    rfl

theorem readCertificate_encodeUnix {der rest : Bytes} {certificate : Certificate}
    (hread : Certificate.read der = some (certificate, rest)) :
    Authority.readCertificate (Pem.encodeUnix Authority.certificateTag der) =
      .ok (der, certificate) := by
  have hcontents : Pem.contentsOf (Pem.encodeUnix Authority.certificateTag der)
      Authority.certificateTag = .ok der :=
    Pem.contentsOf_encodeUnix (by decide) (by decide) der
  simp only [Authority.readCertificate, hcontents, hread]

/-- A certificate is the text of what its authority wrote and signed. -/
theorem exists_written_of_issue (hissued : issue a c days issuer now draw = .ok issued) :
    ∃ written signature,
      (Validity.mk (.ofSeconds now.seconds) (.ofSeconds issued.expiresAt.seconds)).encode? =
        some written ∧
      a.key.sign? draw.nonce (encodeBody a c draw.serial written) = some signature ∧
      (certificateParts a c draw.serial written signature).flatten.length < 2 ^ 64 ∧
      issued.certificatePem = Pem.encodeUnix Authority.certificateTag
        (Asn1.encodeSequence (certificateParts a c draw.serial written signature)) := by
  unfold issue at hissued
  split at hissued
  · cases hissued
  · next expiresAt hexpires =>
      split at hissued
      · cases hissued
      · cases hissued
      · next first last hfirst hlast =>
          obtain rfl := date_eq_of_dateOf hfirst
          obtain rfl := date_eq_of_dateOf hlast
          split at hissued
          · cases hissued
          · next written hwritten =>
              split at hissued
              · cases hissued
              · next der hder =>
                  split at hissued
                  · cases hissued
                  · next found rest hread =>
                      cases hissued
                      obtain ⟨signature, hsigned, rfl, hlength⟩ := length_of_read hder hread
                      exact ⟨written, signature, hwritten, hsigned, hlength, rfl⟩

/-- Whoever reads the text of a certificate finds what its authority wrote. -/
theorem holds_of_issue (hissued : issue a c days issuer now draw = .ok issued) :
    ∃ der certificate, Authority.readCertificate issued.certificatePem = .ok (der, certificate) ∧
      certificate.validity = ⟨.ofSeconds now.seconds, .ofSeconds issued.expiresAt.seconds⟩ ∧
      Holds a c certificate := by
  obtain ⟨written, signature, hwritten, hsigned, hlength, hpem⟩ := exists_written_of_issue hissued
  obtain ⟨certificate, hfound, hvalidity, hholds⟩ :=
    exists_holds hlength (Validity.read_encode? hwritten) hsigned
  rw [hpem]
  exact ⟨_, certificate, readCertificate_encodeUnix hfound, hvalidity, hholds⟩

theorem dateOf_eq {t : Instant} (hyear : 1970 ≤ t.date.year ∧ t.date.year ≤ 9999) :
    dateOf t = .ok (.ofSeconds t.seconds) := by
  have hfirst := (Instant.le_year_iff t).mp hyear.1
  have hlast := (Instant.year_le_iff t).mp hyear.2
  have hinside : ¬ (t.seconds < firstSecond ∨ lastSecond < t.seconds) := by
    unfold firstSecond lastSecond
    omega
  rw [dateOf, if_neg hinside]

/-- A certificate is issued if its dates lie between 1970 and 9999, if its authority signs it, and
if it is not too long. -/
theorem exists_issue {expiresAt : Instant} (hexpires : now.addDays? days = some expiresAt)
    (hfirst : 1970 ≤ now.date.year ∧ now.date.year ≤ 9999)
    (hlast : 1970 ≤ expiresAt.date.year ∧ expiresAt.date.year ≤ 9999)
    (hsigned : ∀ written,
      (Validity.mk (.ofSeconds now.seconds) (.ofSeconds expiresAt.seconds)).encode? = some written →
        ∃ der, encodeCertificate a c written draw = some der ∧ der.length < 2 ^ 64) :
    ∃ issued, issue a c days issuer now draw = .ok issued := by
  have hyears {t : Instant} (hyear : 1970 ≤ t.date.year ∧ t.date.year ≤ 9999) :
      0 ≤ (Instant.ofSeconds t.seconds).date.year ∧
        (Instant.ofSeconds t.seconds).date.year ≤ 9999 :=
    ⟨Int.le_trans (by decide) hyear.1, hyear.2⟩
  obtain ⟨content, hwritten, hvalidity⟩ :=
    Validity.exists_written (hyears hfirst) (hyears hlast)
  obtain ⟨der, hder, hlength⟩ := hsigned _ hwritten
  have hparts := hder
  simp only [encodeCertificate, Option.map_eq_some_iff] at hparts
  obtain ⟨signature, hsignature, hwhole⟩ := hparts
  rw [← hwhole] at hlength
  obtain ⟨certificate, hread, -, -⟩ := exists_holds
    ((Asn1.length_lt_length_encode Asn1.sequence _).trans hlength) hvalidity hsignature
  rw [certificateParts, hwhole] at hread
  exact ⟨recordOf certificate der draw issuer now expiresAt, by
    simp only [issue, hexpires, dateOf_eq hfirst, dateOf_eq hlast, hwritten, hder, hread]⟩

end Issue

end Issuance

end CertAuthority
