import CertAuthority.Authority.KeyMaterial
import CertAuthority.Proofs.Authority.Key

/-!
# Certificates chain to the authority's own

The authority's certificate is signed with the authority's key, so that signatures which verify
under the key verify under the certificate as well.  Its subject is the issuer of the certificates
that the authority signs, unless it gives several values for one type of attribute: then the issuer
keeps the last of them only, and the names differ.
-/

namespace CertAuthority

open X509

namespace Asn1.Element

/-- An element starts with its identifier. -/
theorem expect_eq_none {identifier first : UInt8} (hother : first ≠ identifier) (rest : Bytes) :
    expect identifier (first :: rest) = none := by
  unfold expect
  split
  · next e after hread =>
      have hidentifier : e.identifier = first := by
        rw [read] at hread
        split at hread
        · cases hread
        · split at hread
          · cases hread
          · split at hread
            · cases hread
            · cases hread
              rfl
      rw [if_neg (by rw [hidentifier]; exact hother)]
  · rfl

end Asn1.Element

namespace X509.SigningKey

/-- Whether a signature verifies under the key's own public half. -/
def verifies (key : SigningKey) (message signature : Bytes) : Bool :=
  X509.verifies .uncompressed ⟨key.algorithm.algorithm, key.publicBits, key.publicInfo⟩
    key.signatureMark message signature

variable {curve : CurveName} {secret : Nat} {point : Nat × Nat}

theorem readCanonicalRsaKey_publicBits :
    readCanonicalRsaKey (ecdsa curve secret point).publicBits = none := by
  have hnone (rest : Bytes) : readRsaKey (4 :: rest) = none := by
    rw [readRsaKey, Asn1.Element.expect_eq_none (by decide)]
    rfl
  rw [readCanonicalRsaKey, publicBits, Curve.encodePoint, List.cons_append, hnone]

theorem length_publicBits :
    (ecdsa curve secret point).publicBits.length = 1 + 2 * curve.curve.size := by
  simp only [publicBits, Curve.encodePoint, List.cons_append, List.length_cons, List.length_append,
    Bytes.length_ofNat]
  omega

theorem keyCurve?_of_scheme? {keyAlgorithm algorithm : Algorithm} {name : CurveName}
    {hash : HashAlgorithm} (hscheme : scheme? keyAlgorithm algorithm = some (.ecdsa name hash)) :
    keyCurve? keyAlgorithm = some name := by
  have hmap {other : HashAlgorithm}
      (hcurve : (keyCurve? keyAlgorithm).map (Scheme.ecdsa · other) = some (.ecdsa name hash)) :
      keyCurve? keyAlgorithm = some name := by
    obtain ⟨found, hfound, heq⟩ := Option.map_eq_some_iff.mp hcurve
    cases heq
    exact hfound
  unfold scheme? at hscheme
  dsimp only at hscheme
  repeat' split at hscheme
  all_goals first
    | cases hscheme
    | exact hmap hscheme
    | simp at hscheme

/-- A key on a curve verifies signatures only as a point of a curve, which is its own. -/
theorem keyCurve?_of_verifies {keyAlgorithm algorithm : Algorithm}
    {encoded message signature : Bytes}
    (hverifies : X509.verifies .uncompressed
      ⟨keyAlgorithm, (ecdsa curve secret point).publicBits, encoded⟩ algorithm message signature =
        true) : keyCurve? keyAlgorithm = some curve := by
  unfold X509.verifies at hverifies
  split at hverifies
  · next scheme hscheme =>
      cases scheme with
      | rsa hash least => simp [Scheme.verify, readCanonicalRsaKey_publicBits] at hverifies
      | rsaPss hash => simp [Scheme.verify, readCanonicalRsaKey_publicBits] at hverifies
      | ecdsa name hash =>
          simp only [Scheme.verify, readPoint] at hverifies
          split at hverifies
          · next found r s hfound hsignature =>
              rw [keyCurve?_of_scheme? hscheme]
              by_contra hother
              have hlength := length_of_decodeUncompressed hfound
              rw [length_publicBits] at hlength
              have hsize := size_ne fun hsame => hother (congrArg some hsame)
              omega
          · cases hverifies
      | ed25519 =>
          have hlength : (ecdsa curve secret point).publicBits.length ≠ 32 := by
            rw [length_publicBits]
            omega
          simp [Scheme.verify, Ed25519.verify, Ed25519.decodePoint, hlength] at hverifies
  · cases hverifies

/-- Keys on the largest curve sign, but nothing verifies their signatures. -/
theorem keyCurve?_algorithm {keyAlgorithm : Algorithm}
    (hcurve : keyCurve? keyAlgorithm = some curve) :
    keyCurve? (KeyAlgorithm.ecdsa curve).algorithm = some curve := by
  have hsmall : curve ≠ .p521 := by
    rintro rfl
    unfold keyCurve? at hcurve
    split at hcurve
    · split at hcurve
      · cases hcurve
      · split at hcurve <;> cases hcurve
    · cases hcurve
  revert hsmall
  cases curve <;> decide

/-- A certificate that a key has signed for itself gives its signatures the key's own scheme. -/
theorem scheme?_of_isSelfSigned {key : SigningKey} {ca : Certificate}
    (hbits : ca.publicKey.key = key.publicBits) (hsigned : ca.isSelfSigned = true) :
    scheme? ca.publicKey.algorithm key.signatureMark =
      scheme? key.algorithm.algorithm key.signatureMark := by
  cases key with
  | rsa key => rfl
  | ecdsa curve secret point =>
      have hcurve : keyCurve? ca.publicKey.algorithm = some curve := by
        apply keyCurve?_of_verifies
        rw [← hbits]
        exact hsigned
      rw [scheme?, scheme?, hcurve, algorithm, keyCurve?_algorithm hcurve]
  | ed25519 seed => rfl

/-- Signatures that verify under a key verify under a certificate that it has signed for itself. -/
theorem verifies_of_isSelfSigned {key : SigningKey} {ca : Certificate}
    (hbits : ca.publicKey.key = key.publicBits) (hsigned : ca.isSelfSigned = true)
    (message signature : Bytes) :
    X509.verifies .uncompressed ca.publicKey key.signatureMark message signature =
      key.verifies message signature := by
  simp only [verifies, X509.verifies, scheme?_of_isSelfSigned hbits hsigned, hbits]

end X509.SigningKey

/-- Only proper names are subjects of certificates. -/
theorem X509.Certificate.proper_of_read {input rest : Bytes} {certificate : Certificate}
    (hread : read input = some (certificate, rest)) : certificate.subject.Proper := by
  simp only [read, Option.bind_eq_bind, Option.bind_eq_some_iff, Option.pure_def,
    Option.some.injEq, Prod.mk.injEq, Prod.exists] at hread
  obtain ⟨_, _, -, _, _, -, found, hfound, _, _, -, _, _, -, rfl, -⟩ := hread
  simp only [readBody, Option.bind_eq_bind, Option.bind_eq_some_iff, Option.pure_def,
    Option.some.injEq, Prod.exists] at hfound
  obtain ⟨_, _, -, _, _, -, _, _, -, _, _, -, _, _, -, _, _, -, subject, _, hsubject, _, _, -, _, -,
    _, -, rfl⟩ := hfound
  simp only [Name.read, Option.bind_eq_bind, Option.bind_eq_some_iff, Option.pure_def,
    Option.some.injEq, Prod.mk.injEq, Prod.exists] at hsubject
  obtain ⟨content, _, -, rfl, -⟩ := hsubject
  exact Name.proper_ofContent content

namespace Authority

/-- How an authority is related to its certificate. -/
structure IsOf (a : Authority) (ca : Certificate) : Prop where
  name : ca.subject.singleValued? = some a.name
  proper : a.name.Proper
  bits : ca.publicKey.key = a.key.publicBits
  selfSigned : ca.isSelfSigned = true

theorem proper_of_readCertificate {pem : String} {der : Bytes} {ca : Certificate}
    (hread : readCertificate pem = .ok (der, ca)) : ca.subject.Proper := by
  unfold readCertificate at hread
  split at hread
  · cases hread
  · split at hread
    · cases hread
    · next found rest hfound =>
        cases hread
        exact Certificate.proper_of_read hfound

theorem exists_isOf_of_read {keyPem certificatePem : String} {a : Authority}
    (hread : read keyPem certificatePem = .ok a) :
    ∃ der ca, readCertificate certificatePem = .ok (der, ca) ∧ a.certificatePem = certificatePem ∧
      a.IsOf ca := by
  unfold read at hread
  split at hread
  · cases hread
  · next key hkey =>
      split at hread
      · cases hread
      · next der ca hca =>
          unfold ofParts at hread
          split at hread
          · cases hread
          · split at hread
            · cases hread
            · next hbits =>
                split at hread
                · cases hread
                · next hselfSigned =>
                    split at hread
                    · cases hread
                    · next name hname =>
                        cases hread
                        refine ⟨der, ca, hca, rfl, hname, ?_, by simpa using hbits,
                          by simpa using hselfSigned⟩
                        exact (proper_of_readCertificate hca).singleValued? hname

end Authority

/-- That a key's signatures verify under the key. -/
def X509.SigningKey.Sound (key : SigningKey) : Prop :=
  ∀ nonce message signature, key.sign? nonce message = some signature →
    key.verifies message signature = true

/-- How a certificate is related to that of the authority whose key has signed it. -/
structure Chains (key : SigningKey) (ca certificate : Certificate) : Prop where
  /-- The issuer is the authority's subject with the last value of each type. -/
  issuer : ca.subject.singleValued? = some certificate.issuer
  /-- So it is the subject, attribute by attribute, if and only if no type has several values. -/
  same : certificate.issuer = ca.subject ↔
    (ca.subject.attributes.map NameAttribute.type).Nodup
  /-- The signature verifies under the authority's certificate if it verifies under the key, -/
  signature : certificate.isSignedBy ca.publicKey =
    key.verifies certificate.body certificate.signature
  /-- and that it does if the key's signatures do. -/
  verified : key.Sound → certificate.isSignedBy ca.publicKey = true

theorem Authority.IsOf.chains {a : Authority} {ca : Certificate} (hca : a.IsOf ca) {c : Candidate}
    {certificate : Certificate} (hholds : Issuance.Holds a c certificate) :
    Chains a.key ca certificate := by
  have hissuer := hholds.issuer hca.proper
  have hsignature : certificate.isSignedBy ca.publicKey =
      a.key.verifies certificate.body certificate.signature := by
    rw [Certificate.isSignedBy, hholds.algorithm]
    exact SigningKey.verifies_of_isSelfSigned hca.bits hca.selfSigned _ _
  obtain ⟨nonce, hsigned⟩ := hholds.signature
  exact {
    issuer := by rw [hissuer, hca.name]
    same := by
      rw [hissuer]
      exact Name.eq_of_singleValued?_iff hca.name
    signature := hsignature
    verified := fun hsound => hsignature.trans (hsound nonce _ _ hsigned) }

namespace KeyMaterial

theorem readText_of_ok {d : Disk} {path text : String} (hread : readText d path = .ok text) :
    d.readText path = .ok text := by
  unfold readText at hread
  split at hread
  · next found hfound =>
      cases hread
      exact hfound
  · cases hread

theorem exists_of_load {d : Disk} {dir : String} {keyBits : Nat} {a : Authority}
    (hload : load d dir keyBits = .ok a) :
    ∃ keyPem certificatePem, d.readText (keyPath dir) = .ok keyPem ∧
      d.readText (certificatePath dir) = .ok certificatePem ∧
      Authority.read keyPem certificatePem = .ok a := by
  unfold load at hload
  -- The files are read only where both of them were found.
  cases hkey : isPresent d (keyPath dir) with
  | error e => simp [hkey, bind, Except.bind] at hload
  | ok hasKey =>
      cases hcertificate : isPresent d (certificatePath dir) with
      | error e => simp [hkey, hcertificate, bind, Except.bind] at hload
      | ok hasCertificate =>
          simp only [hkey, hcertificate, bind, Except.bind] at hload
          split at hload
          · cases hkeyText : readText d (keyPath dir) with
            | error e => simp [hkeyText] at hload
            | ok keyPem =>
                cases htext : readText d (certificatePath dir) with
                | error e => simp [hkeyText, htext] at hload
                | ok certificatePem =>
                    simp only [hkeyText, htext] at hload
                    exact ⟨keyPem, certificatePem, readText_of_ok hkeyText, readText_of_ok htext,
                      hload⟩
          all_goals cases hload

/-- What is certain of the certificates that an authority signs once its files are loaded. -/
structure Chaining (d : Disk) (dir : String) (keyBits : Nat) : Prop where
  /-- The published certificate is the one in the file, and the others chain to it. -/
  loaded : ∀ a, load d dir keyBits = .ok a →
    d.readText (certificatePath dir) = .ok a.certificatePem ∧
    ∃ caDer ca, Authority.readCertificate a.certificatePem = .ok (caDer, ca) ∧
      ∀ csrPem days issuer now draw issued,
        Issuance.sign a csrPem days issuer now draw = .ok issued →
          ∃ der certificate, Authority.readCertificate issued.certificatePem = .ok (der, certificate) ∧
            Chains a.key ca certificate

/-- Certificates chain to the published one by their signatures, and by their names if and only if
the authority's subject gives one value for each type of attribute. -/
theorem chaining (d : Disk) (dir : String) (keyBits : Nat) : Chaining d dir keyBits where
  loaded := by
    intro a hload
    obtain ⟨keyPem, certificatePem, -, htext, hread⟩ := exists_of_load hload
    obtain ⟨caDer, ca, hca, hpem, hisOf⟩ := Authority.exists_isOf_of_read hread
    rw [← hpem] at htext hca
    refine ⟨htext, caDer, ca, hca, ?_⟩
    intro csrPem days issuer now draw issued hsigned
    obtain ⟨c, -, hissued⟩ := Issuance.exists_issue_of_sign hsigned
    obtain ⟨der, certificate, hcertificate, -, hholds⟩ := Issuance.holds_of_issue hissued
    exact ⟨der, certificate, hcertificate, hisOf.chains hholds⟩

end KeyMaterial

end CertAuthority
