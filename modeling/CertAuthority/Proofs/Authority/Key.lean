import CertAuthority.Proofs.Authority.Written
import CertAuthority.Proofs.Csr.Checks

/-!
# Which key a certificate is for

A request is admitted with any allowed key and any allowed signature algorithm under which its
signature verifies.  The certificate has the bits of the request's key, but it names the algorithm
that goes with the signature: for a key on the curve P-384 that signs with SHA-256 it names the
curve P-256, of which the key is not a point.
-/

namespace CertAuthority

open X509

/-- What the public keys of a kind are for. -/
def KeyKind.algorithm : KeyKind → KeyAlgorithm
  | .ed25519 => .ed25519
  | .ecdsa curve => .ecdsa curve
  | .rsa _ => .rsa

/-- That two public keys have the same bits under the same algorithm, on the same curve if it is
one of curves. -/
structure X509.PublicKeyInfo.Agrees (first second : PublicKeyInfo) : Prop where
  key : first.key = second.key
  algorithm : first.algorithm.oid = second.algorithm.oid
  curve : first.algorithm.oid = Oid.ecPublicKey →
    first.algorithm.parameterOid? = second.algorithm.parameterOid?

namespace X509.KeyAlgorithm

theorem parameterOid?_algorithm (curve : CurveName) :
    (ecdsa curve).algorithm.parameterOid? = some (curveOid curve) := by
  cases curve <;> decide

/-- The identifiers of an algorithm and of its curve tell which one it is. -/
theorem eq_of_oid_eq {first second : KeyAlgorithm}
    (hoid : first.algorithm.oid = second.algorithm.oid)
    (hcurve : first.algorithm.oid = Oid.ecPublicKey →
      first.algorithm.parameterOid? = second.algorithm.parameterOid?) : first = second := by
  cases first with
  | rsa =>
      cases second with
      | rsa => rfl
      | ecdsa curve => exact absurd hoid (by decide : Oid.rsaEncryption ≠ Oid.ecPublicKey)
      | ed25519 => exact absurd hoid (by decide : Oid.rsaEncryption ≠ Oid.ed25519)
  | ecdsa curve =>
      cases second with
      | rsa => exact absurd hoid (by decide : Oid.ecPublicKey ≠ Oid.rsaEncryption)
      | ecdsa other =>
          have hsame := hcurve rfl
          rw [parameterOid?_algorithm, parameterOid?_algorithm, Option.some.injEq] at hsame
          cases curve <;> cases other <;>
            first
              | rfl
              | exact absurd hsame (by decide)
      | ed25519 => exact absurd hoid (by decide : Oid.ecPublicKey ≠ Oid.ed25519)
  | ed25519 =>
      cases second with
      | rsa => exact absurd hoid (by decide : Oid.ed25519 ≠ Oid.rsaEncryption)
      | ecdsa curve => exact absurd hoid (by decide : Oid.ed25519 ≠ Oid.ecPublicKey)
      | ed25519 => rfl

end X509.KeyAlgorithm

namespace Csr

variable {key other : PublicKeyInfo} {kind : KeyKind} {algorithm : KeyAlgorithm} {encoded : Bytes}

theorem IsOfKind.oid_eq (hkind : IsOfKind key kind) :
    key.algorithm.oid = kind.algorithm.algorithm.oid := by
  cases kind with
  | ed25519 => exact hkind
  | ecdsa curve => exact hkind.1
  | rsa bits => exact hkind.1

theorem IsOfKind.parameterOid?_eq (hkind : IsOfKind key kind)
    (hcurve : key.algorithm.oid = Oid.ecPublicKey) :
    key.algorithm.parameterOid? = kind.algorithm.algorithm.parameterOid? := by
  cases kind with
  | ed25519 => exact absurd (hkind.symm.trans hcurve) (by decide)
  | ecdsa curve => exact hkind.2.1.trans (KeyAlgorithm.parameterOid?_algorithm curve).symm
  | rsa bits => exact absurd (hkind.1.symm.trans hcurve) (by decide)

theorem IsOfKind.of_agrees (hkind : IsOfKind key kind) (hagrees : other.Agrees key) :
    IsOfKind other kind := by
  cases kind with
  | ed25519 => exact hagrees.algorithm.trans hkind
  | ecdsa curve =>
      obtain ⟨hoid, hparameter, hsmall⟩ := hkind
      have hother := hagrees.algorithm.trans hoid
      exact ⟨hother, (hagrees.curve hother).trans hparameter, hsmall⟩
  | rsa bits =>
      obtain ⟨hoid, hlarge, hintegers⟩ := hkind
      exact ⟨hagrees.algorithm.trans hoid, hlarge, by rw [hagrees.key, hintegers]⟩

/-- The bits of a key under an algorithm are that key if and only if the algorithm is the one of
the key's kind. -/
theorem agrees_iff (hkind : IsOfKind key kind) :
    PublicKeyInfo.Agrees ⟨algorithm.algorithm, key.key, encoded⟩ key ↔
      algorithm = kind.algorithm := by
  constructor
  · intro hagrees
    apply KeyAlgorithm.eq_of_oid_eq (hagrees.algorithm.trans hkind.oid_eq)
    intro hcurve
    exact (hagrees.curve hcurve).trans
      (hkind.parameterOid?_eq (hagrees.algorithm.symm.trans hcurve))
  · rintro rfl
    exact ⟨rfl, hkind.oid_eq.symm, fun hcurve =>
      (hkind.parameterOid?_eq (hkind.oid_eq.trans hcurve)).symm⟩

/-- They pass the check with the same result if and only if they are that key. -/
theorem checkKey_eq_ok_iff (hkind : IsOfKind key kind) :
    checkKey ⟨algorithm.algorithm, key.key, encoded⟩ = .ok kind ↔ algorithm = kind.algorithm := by
  constructor
  · intro hchecked
    have hsame := isOfKind_of_checkKey hchecked
    exact KeyAlgorithm.eq_of_oid_eq hsame.oid_eq hsame.parameterOid?_eq
  · intro halgorithm
    exact checkKey_of_isOfKind (hkind.of_agrees ((agrees_iff hkind).mpr halgorithm))

end Csr

namespace X509

/-- The uncompressed form of a point tells the size of its curve. -/
theorem length_of_decodeUncompressed {curve : Curve} {key : Bytes} {point : Nat × Nat}
    (hpoint : curve.decodeUncompressed key = some point) : key.length = 1 + 2 * curve.size := by
  unfold Curve.decodeUncompressed at hpoint
  split at hpoint
  · next rest =>
      simp only [Option.ite_none_right_eq_some] at hpoint
      rw [List.length_cons, hpoint.1.1, Nat.add_comm]
  · cases hpoint

/-- A point in uncompressed form is not read on a curve with another size. -/
theorem readPoint_eq_none {curve other : Curve} {key : Bytes} {point : Nat × Nat}
    (hpoint : curve.decodeUncompressed key = some point) (hsize : other.size ≠ curve.size)
    (forms : PointForms) : readPoint forms other key = none := by
  have hlength := length_of_decodeUncompressed hpoint
  have hnone : other.decodeUncompressed key = none := by
    rw [Option.eq_none_iff_forall_ne_some]
    intro found hfound
    have hother := length_of_decodeUncompressed hfound
    omega
  cases forms with
  | uncompressed => exact hnone
  | any =>
      unfold Curve.decodeUncompressed at hpoint
      split at hpoint
      · exact hnone
      · cases hpoint

theorem keyCurve?_of_isOfKind {key : PublicKeyInfo} {curve : CurveName}
    (hkind : Csr.IsOfKind key (.ecdsa curve)) : keyCurve? key.algorithm = some curve := by
  obtain ⟨-, hparameter, hsmall⟩ := hkind
  have hcurves : Oid.curveP384 ≠ Oid.curveP256 := by decide
  rw [keyCurve?, hparameter]
  cases curve with
  | p256 => exact if_pos rfl
  | p384 => simp only [curveOid, if_neg hcurves, if_true]
  | p521 => exact absurd rfl hsmall

theorem eq_ecdsa_of_keyCurve? {algorithm : KeyAlgorithm} {curve : CurveName}
    (hcurve : keyCurve? algorithm.algorithm = some curve) : algorithm = .ecdsa curve := by
  cases algorithm with
  | rsa => exact absurd hcurve (by simp [keyCurve?, KeyAlgorithm.algorithm, Algorithm.parameterOid?,
      Asn1.null, Asn1.objectIdentifier])
  | ecdsa other =>
      rw [keyCurve?, KeyAlgorithm.parameterOid?_algorithm] at hcurve
      revert hcurve
      cases other <;> cases curve <;> decide
  | ed25519 => cases hcurve

/-- The scheme of a signature that goes with a curve is on the curve of the key. -/
theorem exists_scheme?_eq {keyAlgorithm algorithm : Algorithm} {curve other : CurveName}
    (hcurve : keyCurve? keyAlgorithm = some curve)
    (halgorithm : Candidate.keyAlgorithm? algorithm.oid = some (.ecdsa other)) :
    ∃ hash, scheme? keyAlgorithm algorithm = some (.ecdsa curve hash) := by
  have hoid : algorithm.oid = Oid.ecdsaWithSha256 ∨ algorithm.oid = Oid.ecdsaWithSha384 := by
    unfold Candidate.keyAlgorithm? at halgorithm
    split at halgorithm
    · cases halgorithm
    · split at halgorithm
      · next hoid => exact .inl hoid
      · split at halgorithm
        · next hoid => exact .inr hoid
        · split at halgorithm <;> cases halgorithm
  rcases hoid with hoid | hoid
  · exact ⟨.sha256, by
      rw [scheme?, hoid, hcurve]
      rfl⟩
  · exact ⟨.sha384, by
      rw [scheme?, hoid, hcurve]
      rfl⟩

/-- A signature that goes with a curve verifies only under a point of the key's curve. -/
theorem exists_point_of_verifies {key : PublicKeyInfo} {algorithm : Algorithm}
    {message signature : Bytes} {curve other : CurveName}
    (hcurve : keyCurve? key.algorithm = some curve)
    (halgorithm : Candidate.keyAlgorithm? algorithm.oid = some (.ecdsa other))
    (hverifies : verifies .uncompressed key algorithm message signature = true) :
    ∃ point, curve.curve.decodeUncompressed key.key = some point := by
  obtain ⟨hash, hscheme⟩ := exists_scheme?_eq hcurve halgorithm
  simp only [verifies, hscheme, Scheme.verify, readPoint] at hverifies
  split at hverifies
  · next point r s hpoint hsignature => exact ⟨point, hpoint⟩
  · cases hverifies

theorem size_ne {curve other : CurveName} (hdifferent : other ≠ curve) :
    other.curve.size ≠ curve.curve.size := by
  revert hdifferent
  cases curve <;> cases other <;> decide

end X509

/-- How the key in a certificate relates to the key that signed the request for it. -/
structure Certifies (request : Request) (kind : KeyKind) (certificate : Certificate) : Prop where
  /-- It has the bits of the request's key, -/
  bits : certificate.publicKey.key = request.publicKey.key
  /-- written under the algorithm that goes with the request's signature. -/
  encoded : ∃ algorithm, Candidate.keyAlgorithm? request.algorithm.oid = some algorithm ∧
    certificate.publicKey.encoded = algorithm.encodeKey request.publicKey.key
  /-- So it is the request's key if and only if the signature goes with the kind of the key, -/
  agrees : certificate.publicKey.Agrees request.publicKey ↔
    Candidate.keyAlgorithm? request.algorithm.oid = some kind.algorithm
  /-- and only then it is still a key of that kind. -/
  checked : Csr.checkKey certificate.publicKey = .ok kind ↔
    Candidate.keyAlgorithm? request.algorithm.oid = some kind.algorithm
  /-- On a curve that is not its own the key is not a point. -/
  foreign : ∀ curve other, kind = .ecdsa curve →
    keyCurve? certificate.publicKey.algorithm = some other → other ≠ curve →
      ∀ forms, readPoint forms other.curve certificate.publicKey.key = none

theorem Csr.Checked.certifies {request : Request} {identity : SubjectIdentity} {kind : KeyKind}
    (hchecked : Csr.Checked request identity kind) {a : Authority} {c : Candidate}
    (hfrom : c.IsFrom request) {certificate : Certificate}
    (hholds : Issuance.Holds a c certificate) : Certifies request kind certificate := by
  have hkind := Csr.isOfKind_of_checkKey hchecked.key
  have hkey : certificate.publicKey =
      ⟨c.keyAlgorithm.algorithm, request.publicKey.key, c.publicInfo⟩ := by
    rw [hholds.publicKey, hfrom.key]
  have hsame : c.keyAlgorithm = kind.algorithm ↔
      Candidate.keyAlgorithm? request.algorithm.oid = some kind.algorithm := by
    rw [hfrom.keyAlgorithm, Option.some.injEq]
  refine ⟨by rw [hkey], ⟨c.keyAlgorithm, hfrom.keyAlgorithm, ?_⟩, ?_, ?_, ?_⟩
  · rw [hkey, Candidate.publicInfo, hfrom.key]
  · rw [hkey, ← hsame]
    exact Csr.agrees_iff hkind
  · rw [hkey, ← hsame]
    exact Csr.checkKey_eq_ok_iff hkind
  · rintro curve other rfl hother hdifferent forms
    rw [hkey] at hother ⊢
    have halgorithm := hfrom.keyAlgorithm
    rw [eq_ecdsa_of_keyCurve? hother] at halgorithm
    obtain ⟨point, hpoint⟩ :=
      exists_point_of_verifies (keyCurve?_of_isOfKind hkind) halgorithm hchecked.signed
    exact readPoint_eq_none hpoint (size_ne hdifferent) forms

/-- What is certain of the keys in the certificates of an authority. -/
structure Authority.KeyBinding (a : Authority) : Prop where
  /-- Of a request that was validated, and a certificate that was signed for it. -/
  signed : ∀ csrPem csr days issuer now draw issued, Csr.validate csrPem = .ok csr →
    Issuance.sign a csrPem days issuer now draw = .ok issued →
      ∃ request der certificate, Csr.read csrPem = .ok request ∧
        Authority.readCertificate issued.certificatePem = .ok (der, certificate) ∧
        Certifies request csr.key certificate

/-- A certificate is for the key that signed its request if and only if that key is of the kind that
goes with its signature; any other certificate names another algorithm for the bits of the key. -/
theorem Authority.keyBinding (a : Authority) : a.KeyBinding where
  signed := by
    intro csrPem csr days issuer now draw issued hvalid hsigned
    obtain ⟨request, hread, hchecked⟩ := Csr.exists_checked_of_validate hvalid
    obtain ⟨c, hcandidate, hissued⟩ := Issuance.exists_issue_of_sign hsigned
    have hfrom := (Candidate.read?_eq_some_iff hread).mp hcandidate
    obtain ⟨der, certificate, hcertificate, -, hholds⟩ := Issuance.holds_of_issue hissued
    exact ⟨request, der, certificate, hread, hcertificate, hchecked.certifies hfrom hholds⟩

end CertAuthority
