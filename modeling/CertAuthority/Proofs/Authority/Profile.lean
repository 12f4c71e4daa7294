import CertAuthority.Proofs.Authority.Acceptance

/-!
# What certificates allow, whatever their requests ask for

A request may ask to be an authority, for any usage of its key and for any known purpose.  None of
this reaches the certificate: there the three extensions that decide about it are the authority's
own, each stands once, and the dates follow from the clock and the number of days alone.
-/

namespace CertAuthority

open X509

namespace X509

/-- What a key may be used for. -/
inductive KeyUsage where
  | digitalSignature
  | nonRepudiation
  | keyEncipherment
  | dataEncipherment
  | keyAgreement
  | keyCertSign
  | crlSign
  | encipherOnly
  | decipherOnly
  deriving Repr, DecidableEq

namespace KeyUsage

/-- The usages in the order of their bits. -/
def inOrder : List KeyUsage :=
  [digitalSignature, nonRepudiation, keyEncipherment, dataEncipherment, keyAgreement, keyCertSign,
    crlSign, encipherOnly, decipherOnly]

/-- The numbers of the bits that are set, counted from the highest bit of the first byte. -/
def setBits (bits : Bytes) : List Nat :=
  (List.range (8 * bits.length)).filter fun n =>
    (bits.getD (n / 8) 0).toNat.testBit (7 - n % 8)

/-- The usages in the value of an extension; nothing if a bit is set that stands for none. -/
def read (value : Bytes) : Option (List KeyUsage) :=
  match Asn1.readBits value with
  | some (bits, []) => (setBits bits).mapM (inOrder[·]?)
  | _ => none

end KeyUsage

/-- An extension is the only one of its type if no type is repeated. -/
theorem Extension.filter_of_nodup {extensions : List Extension} {e : Extension}
    (hnodup : (extensions.map Extension.oid).Nodup) (hmem : e ∈ extensions) :
    extensions.filter (·.oid = e.oid) = [e] := by
  induction extensions with
  | nil => cases hmem
  | cons first rest ih =>
      obtain ⟨hfirst, hrest⟩ := List.nodup_cons.mp hnodup
      rcases List.mem_cons.mp hmem with rfl | hlater
      · have hnone : rest.filter (·.oid = e.oid) = [] := by
          rw [List.filter_eq_nil_iff]
          intro other hother
          simpa using fun hsame : other.oid = e.oid =>
            hfirst (hsame ▸ List.mem_map_of_mem hother)
        rw [List.filter_cons_of_pos (by simp), hnone]
      · have hother : first.oid ≠ e.oid := fun hsame =>
          hfirst (hsame ▸ List.mem_map_of_mem hlater)
        rw [List.filter_cons_of_neg (by simpa using hother)]
        exact ih hrest hlater

theorem Extension.unique?_of_nodup {extensions : List Extension} {e : Extension}
    (hnodup : (extensions.map Extension.oid).Nodup) (hmem : e ∈ extensions) :
    unique? extensions e.oid = some e := by
  rw [unique?, filter_of_nodup hnodup hmem]

/-- What is certain of a certificate that was issued at some time for some days. -/
structure Certificate.HasProfile (certificate : Certificate) (now : Instant) (days : Nat) :
    Prop where
  /-- It is of version three. -/
  version : certificate.version = 2
  /-- Of each type of extension there is one at most, and these are the types. -/
  nodup : (certificate.extensions.map Extension.oid).Nodup
  types : ∀ e ∈ certificate.extensions, e.oid ∈
    [Oid.authorityKeyIdentifier, Oid.subjectAltName, Oid.keyUsage, Oid.extendedKeyUsage,
      Oid.subjectKeyIdentifier, Oid.basicConstraints]
  /-- Its one extension of basic constraints says that it is not an authority's, -/
  constraints : ∃ e, Extension.unique? certificate.extensions Oid.basicConstraints = some e ∧
    e.critical = true ∧ BasicConstraints.read e.value = some ⟨false, none⟩
  notAuthority : certificate.isAuthority = false
  /-- the one of key usage allows these two usages, -/
  usages : ∃ e, Extension.unique? certificate.extensions Oid.keyUsage = some e ∧
    e.critical = true ∧ KeyUsage.read e.value = some [.digitalSignature, .keyEncipherment]
  /-- and the one of purposes names this one. -/
  purposes : ∃ e, Extension.unique? certificate.extensions Oid.extendedKeyUsage = some e ∧
    e.critical = false ∧ readPurposes e.value = some [Oid.clientAuth]
  /-- It is valid from the second of the clock on, for whole days. -/
  notBefore : certificate.validity.notBefore.seconds = now.seconds
  lasts : certificate.validity.notAfter.seconds - certificate.validity.notBefore.seconds =
    days * 86400

end X509

namespace Issuance

variable {a : Authority} {c : Candidate} {e : Extension}

theorem alternativeNames_eq_or (c : Candidate) :
    alternativeNames c = [] ∨ ∃ e, alternativeNames c = [e] ∧ e.oid = Oid.subjectAltName := by
  unfold alternativeNames
  split
  · exact .inl rfl
  · exact .inr ⟨_, rfl, rfl⟩

theorem nodup_extensions (a : Authority) (c : Candidate) :
    ((extensions a c).map Extension.oid).Nodup := by
  rcases alternativeNames_eq_or c with hnone | ⟨e, hone, htype⟩
  · rw [extensions, hnone]
    exact (by decide : [Oid.authorityKeyIdentifier, Oid.keyUsage, Oid.extendedKeyUsage,
      Oid.subjectKeyIdentifier, Oid.basicConstraints].Nodup)
  · rw [extensions, hone, List.cons_append, List.map_cons, List.singleton_append, List.map_cons,
      htype]
    exact (by decide : [Oid.authorityKeyIdentifier, Oid.subjectAltName, Oid.keyUsage,
      Oid.extendedKeyUsage, Oid.subjectKeyIdentifier, Oid.basicConstraints].Nodup)

theorem oid_of_mem_extensions (hmem : e ∈ extensions a c) : e.oid ∈
    [Oid.authorityKeyIdentifier, Oid.subjectAltName, Oid.keyUsage, Oid.extendedKeyUsage,
      Oid.subjectKeyIdentifier, Oid.basicConstraints] := by
  simp only [extensions, List.cons_append, List.mem_cons, List.mem_append, List.not_mem_nil,
    or_false] at hmem
  rcases hmem with rfl | hname | rfl | rfl | rfl | rfl
  · simp [authorityKeyIdentifier]
  · rcases alternativeNames_eq_or c with hnone | ⟨one, hone, htype⟩
    · rw [hnone] at hname
      cases hname
    · rw [hone, List.mem_singleton] at hname
      simp [hname, htype]
  · simp [keyUsage]
  · simp [purposes]
  · simp [subjectKeyIdentifier]
  · simp [notAnAuthority]

theorem read_notAnAuthority : BasicConstraints.read notAnAuthority.value = some ⟨false, none⟩ := by
  decide

theorem read_keyUsage :
    KeyUsage.read keyUsage.value = some [.digitalSignature, .keyEncipherment] := by
  decide

theorem read_purposes : readPurposes purposes.value = some [Oid.clientAuth] := by
  decide

/-- Each of the extensions that the authority decides about is the only one of its type. -/
theorem unique?_decided (hmem : e ∈ [keyUsage, purposes, subjectKeyIdentifier c, notAnAuthority]) :
    Extension.unique? (extensions a c) e.oid = some e :=
  Extension.unique?_of_nodup (nodup_extensions a c) (List.mem_append_right _ hmem)

end Issuance

theorem Issuance.Holds.hasProfile {a : Authority} {c : Candidate} {certificate : Certificate}
    {now expiresAt : Instant} {days : Nat} (hholds : Holds a c certificate)
    (hvalidity : certificate.validity = ⟨.ofSeconds now.seconds, .ofSeconds expiresAt.seconds⟩)
    (hexpires : now.addDays? days = some expiresAt) : certificate.HasProfile now days := by
  have hconstraints : Extension.unique? certificate.extensions Oid.basicConstraints =
      some notAnAuthority := by
    rw [hholds.extensions]
    exact unique?_decided (e := notAnAuthority) (by simp)
  have husages : Extension.unique? certificate.extensions Oid.keyUsage = some keyUsage := by
    rw [hholds.extensions]
    exact unique?_decided (e := keyUsage) (by simp)
  have hpurposes : Extension.unique? certificate.extensions Oid.extendedKeyUsage =
      some purposes := by
    rw [hholds.extensions]
    exact unique?_decided (e := purposes) (by simp)
  exact {
    version := hholds.version
    nodup := by rw [hholds.extensions]; exact nodup_extensions a c
    types := by rw [hholds.extensions]; exact fun _ => oid_of_mem_extensions
    constraints := ⟨_, hconstraints, rfl, read_notAnAuthority⟩
    notAuthority := by simp only [Certificate.isAuthority, hconstraints, read_notAnAuthority]
    usages := ⟨_, husages, rfl, read_keyUsage⟩
    purposes := ⟨_, hpurposes, rfl, read_purposes⟩
    notBefore := by rw [hvalidity]; rfl
    lasts := by
      have hseconds := Instant.seconds_of_addDays? hexpires
      rw [hvalidity]
      simp only [CertificateDate.ofSeconds]
      omega }

/-- What is certain of the certificates of an authority, whatever was asked for. -/
structure Authority.Restraint (a : Authority) : Prop where
  /-- Every certificate that is signed for a text can be read, and has the profile. -/
  signed : ∀ csrPem days issuer now draw issued,
    Issuance.sign a csrPem days issuer now draw = .ok issued →
      ∃ der certificate, Authority.readCertificate issued.certificatePem = .ok (der, certificate) ∧
        certificate.HasProfile now days
  /-- A request that passed the checks is signed, if it can be; asking for more than the profile
  gives is no reason to refuse it. -/
  granted : ∀ csrPem csr days issuer now draw, Csr.validate csrPem = .ok csr →
    Csr.IsSignable csrPem → Issuance.Fits now days → Issuance.KeySigns a csrPem days now draw →
      ∃ issued, Issuance.sign a csrPem days issuer now draw = .ok issued

/-- No request gets more from an authority than the profile of its certificates. -/
theorem Authority.restraint (a : Authority) : a.Restraint where
  signed := by
    intro csrPem days issuer now draw issued hsigned
    have hexpires := Issuance.expires_of_sign hsigned
    rw [Issuance.issuedAt_of_sign hsigned] at hexpires
    obtain ⟨c, -, hissued⟩ := Issuance.exists_issue_of_sign hsigned
    obtain ⟨der, certificate, hcertificate, hvalidity, hholds⟩ := Issuance.holds_of_issue hissued
    exact ⟨der, certificate, hcertificate, hholds.hasProfile hvalidity hexpires⟩
  granted := fun _ _ _ _ _ _ => Issuance.exists_sign

/-- A request to be an authority that issues authorities is granted as one for nothing. -/
example : Candidate.granted? ⟨Oid.basicConstraints, true,
    Asn1.encodeSequence [Asn1.encodeTrue, Asn1.encodeNat 1]⟩ = some [] := by
  decide

end CertAuthority
