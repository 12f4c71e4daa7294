import CertAuthority.Proofs.Authority.Key
import CertAuthority.Proofs.Time.Instant

/-!
# Which requests can be signed

The checks of a request say nothing of two things that matter when it is signed: whether its subject
can be written, and whether the extensions that it asks for can be granted.  A request that passed
the checks can be signed if and only if both are so.
-/

namespace CertAuthority

open X509

/-- Whether each relative name has one attribute, which can be written. -/
def X509.Name.IsPlain (name : Name) : Prop :=
  ∀ attributes ∈ name.relativeNames, ∃ a, attributes = [a] ∧ a.isWritable = true

/-- Whether a request can be signed, once it has passed the checks. -/
structure X509.Request.IsSignable (request : Request) : Prop where
  plain : request.subject.IsPlain
  granted : ∀ e ∈ request.requestedExtensions, (Candidate.granted? e).isSome = true

/-- Whether the request in a text can be signed. -/
def Csr.IsSignable (csrPem : String) : Prop :=
  ∃ request, Csr.read csrPem = .ok request ∧ request.IsSignable

theorem isSome_mapM_iff {α β : Type} (f : α → Option β) (items : List α) :
    (items.mapM f).isSome = true ↔ ∀ a ∈ items, (f a).isSome = true := by
  induction items with
  | nil => simp
  | cons a items ih =>
      rw [List.mapM_cons, List.forall_mem_cons, ← ih]
      cases f a <;> cases items.mapM f <;> simp

namespace X509

theorem Name.isSome_singleValued?_iff (name : Name) :
    name.singleValued?.isSome = true ↔ name.IsPlain := by
  rw [singleValued?, Option.isSome_map, plainAttributes?, isSome_mapM_iff]
  refine forall_congr' fun attributes => imp_congr_right fun hmem => ?_
  rcases attributes with _ | ⟨a, _ | ⟨b, rest⟩⟩
  · simp
  · simp
  · simp

/-- A point that is read in uncompressed form is read in any form. -/
theorem readPoint_any {curve : Curve} {key : Bytes} {point : Nat × Nat}
    (hpoint : readPoint .uncompressed curve key = some point) :
    readPoint .any curve key = some point := by
  cases key with
  | nil => cases hpoint
  | cons tag rest =>
      by_cases htag : tag = 4
      · subst htag
        exact hpoint
      · simp [readPoint, Curve.decodeUncompressed, htag] at hpoint

theorem Scheme.verify_any {scheme : Scheme} {key message signature : Bytes}
    (hverify : scheme.verify .uncompressed key message signature = true) :
    scheme.verify .any key message signature = true := by
  cases scheme with
  | rsa hash least => exact hverify
  | rsaPss hash => exact hverify
  | ecdsa curve hash =>
      simp only [verify] at hverify ⊢
      split at hverify
      · next point r s hpoint hsignature =>
          rw [readPoint_any hpoint, hsignature]
          exact hverify
      · cases hverify
  | ed25519 => exact hverify

theorem verifies_any {key : PublicKeyInfo} {algorithm : Algorithm} {message signature : Bytes}
    (hverifies : verifies .uncompressed key algorithm message signature = true) :
    verifies .any key algorithm message signature = true := by
  unfold verifies at hverifies ⊢
  split at hverifies
  · exact Scheme.verify_any hverifies
  · cases hverifies

end X509

/-- Every signature algorithm that is allowed goes with some key. -/
theorem Candidate.isSome_keyAlgorithm? {signature : Oid}
    (hallowed : signature ∈ Csr.allowedAlgorithms) : (keyAlgorithm? signature).isSome = true := by
  revert signature
  decide

/-- The types of extension of which some are granted. -/
def Candidate.grantedTypes : List Oid :=
  [Oid.subjectAltName, Oid.keyUsage, Oid.extendedKeyUsage, Oid.basicConstraints]

theorem Candidate.mem_grantedTypes {e : Extension} (hgranted : (granted? e).isSome = true) :
    e.oid ∈ grantedTypes := by
  unfold granted? at hgranted
  split at hgranted
  · next h => simp [grantedTypes, h]
  · split at hgranted
    · next h => simp [grantedTypes, h]
    · split at hgranted
      · next h => simp [grantedTypes, h]
      · split at hgranted
        · next h => simp [grantedTypes, h]
        · cases hgranted

namespace Csr

variable {csrPem : String} {request : Request} {identity : SubjectIdentity} {kind : KeyKind}

/-- A request that passed the checks gives a candidate if and only if it can be signed. -/
theorem Checked.exists_isFrom_iff (hchecked : Checked request identity kind) :
    (∃ c : Candidate, c.IsFrom request) ↔ request.IsSignable := by
  have hnames : (request.requestedExtensions.mapM Candidate.granted?).isSome = true ↔
      ∀ e ∈ request.requestedExtensions, (Candidate.granted? e).isSome = true :=
    isSome_mapM_iff _ _
  have hsubject := Name.isSome_singleValued?_iff request.subject
  constructor
  · rintro ⟨c, hfrom⟩
    refine ⟨hsubject.mp (by rw [hfrom.subject]; rfl), hnames.mp ?_⟩
    rw [← Option.isSome_map (f := List.flatten), hfrom.names]
    rfl
  · rintro ⟨hplain, hgranted⟩
    obtain ⟨algorithm, halgorithm⟩ :=
      Option.isSome_iff_exists.mp (Candidate.isSome_keyAlgorithm? hchecked.allowed)
    obtain ⟨subject, hsubject⟩ := Option.isSome_iff_exists.mp (hsubject.mpr hplain)
    obtain ⟨names, hnames⟩ := Option.isSome_iff_exists.mp (hnames.mpr hgranted)
    exact ⟨⟨subject, algorithm, request.publicKey.key, names.flatten⟩, verifies_any hchecked.signed,
      halgorithm, hsubject, rfl, by rw [hnames]; rfl⟩

/-- So does a text that was validated. -/
theorem exists_candidate_iff {csr : ValidatedCsr} (hvalid : validate csrPem = .ok csr) :
    (∃ c, Candidate.read? csrPem = some c) ↔ IsSignable csrPem := by
  obtain ⟨request, hread, hchecked⟩ := exists_checked_of_validate hvalid
  have hsame : IsSignable csrPem ↔ request.IsSignable := by
    refine ⟨?_, fun hsignable => ⟨request, hread, hsignable⟩⟩
    rintro ⟨other, hother, hsignable⟩
    cases hread.symm.trans hother
    exact hsignable
  rw [hsame, ← hchecked.exists_isFrom_iff]
  exact exists_congr fun c => Candidate.read?_eq_some_iff hread

end Csr

namespace Issuance

/-- Whether the dates of a certificate lie between 1970 and 9999. -/
def Fits (now : Instant) (days : Nat) : Prop :=
  1970 ≤ now.date.year ∧ ∃ expiresAt, now.addDays? days = some expiresAt ∧
    expiresAt.date.year ≤ 9999

/-- Whether a draw gives a signature of the certificate for a text, which is not too long then. -/
def KeySigns (a : Authority) (csrPem : String) (days : Nat) (now : Instant) (draw : Draw) : Prop :=
  ∀ c expiresAt written, Candidate.read? csrPem = some c → now.addDays? days = some expiresAt →
    (Validity.mk (.ofSeconds now.seconds) (.ofSeconds expiresAt.seconds)).encode? = some written →
      ∃ der, encodeCertificate a c written draw = some der ∧ der.length < 2 ^ 64

variable {a : Authority} {csrPem : String} {csr : ValidatedCsr} {days : Nat}
variable {issuer : CertificateIssuer} {now : Instant} {draw : Draw}

/-- A request that can be signed is signed. -/
theorem exists_sign (hvalid : Csr.validate csrPem = .ok csr) (hsignable : Csr.IsSignable csrPem)
    (hfits : Fits now days) (hsigns : KeySigns a csrPem days now draw) :
    ∃ issued, sign a csrPem days issuer now draw = .ok issued := by
  obtain ⟨c, hcandidate⟩ := (Csr.exists_candidate_iff hvalid).mpr hsignable
  obtain ⟨hfirst, expiresAt, hexpires, hlast⟩ := hfits
  have hseconds := Instant.seconds_of_addDays? hexpires
  have hearlier : now.date.year ≤ 9999 := by
    rw [Instant.year_le_iff] at hlast ⊢
    omega
  have hlater : 1970 ≤ expiresAt.date.year := by
    rw [Instant.le_year_iff] at hfirst ⊢
    omega
  obtain ⟨issued, hissued⟩ := exists_issue hexpires ⟨hfirst, hearlier⟩ ⟨hlater, hlast⟩
    (hsigns c expiresAt · hcandidate hexpires ·)
  exact ⟨issued, by rw [sign, hcandidate]; exact hissued⟩

/-- Only a request that can be signed is signed. -/
theorem isSignable_of_sign {issued : IssuedCertificate} (hvalid : Csr.validate csrPem = .ok csr)
    (hsigned : sign a csrPem days issuer now draw = .ok issued) : Csr.IsSignable csrPem := by
  obtain ⟨c, hcandidate, -⟩ := exists_issue_of_sign hsigned
  exact (Csr.exists_candidate_iff hvalid).mp ⟨c, hcandidate⟩

/-- A request that cannot be signed is not loaded. -/
theorem sign_of_not_isSignable (hvalid : Csr.validate csrPem = .ok csr)
    (hnot : ¬ Csr.IsSignable csrPem) :
    sign a csrPem days issuer now draw =
      .error (.error (.signing "Failed to load CSR for signing")) := by
  have hnone : Candidate.read? csrPem = none := by
    rw [Option.eq_none_iff_forall_ne_some]
    intro c hcandidate
    exact hnot ((Csr.exists_candidate_iff hvalid).mp ⟨c, hcandidate⟩)
  rw [sign, hnone]

end Issuance

/-! ## What is on record of a certificate

It is issued now, by whoever asks for it, and lasts the number of whole days that it was asked for.
-/

/-- That a certificate is valid for a number of whole days. -/
def IssuedCertificate.Lasts (issued : IssuedCertificate) (days : Nat) : Prop :=
  issued.expiresAt =
    ⟨issued.issuedAt.seconds + days * Instant.secondsPerDay, issued.issuedAt.fraction⟩

namespace Issuance

variable {a : Authority} {csrPem : String} {days : Nat} {issuer : CertificateIssuer}
variable {now : Instant} {draw : Draw} {issued : IssuedCertificate}

/-- The record is of a certificate, of the draw, and of the time when it was signed. -/
theorem exists_recordOf_of_sign (hsigned : sign a csrPem days issuer now draw = .ok issued) :
    ∃ certificate der expiresAt, now.addDays? days = some expiresAt ∧
      issued = recordOf certificate der draw issuer now expiresAt := by
  obtain ⟨c, -, hissued⟩ := exists_issue_of_sign hsigned
  obtain ⟨_, der, certificate, _, expiresAt, hexpires, -, -, hrecord⟩ := exists_of_issue hissued
  exact ⟨certificate, der, expiresAt, hexpires, hrecord⟩

theorem serialNumber_of_sign (hsigned : sign a csrPem days issuer now draw = .ok issued) :
    issued.serialNumber = SerialNumber.ofBytes draw.serial := by
  obtain ⟨_, _, _, -, rfl⟩ := exists_recordOf_of_sign hsigned
  rfl

theorem issuer_of_sign (hsigned : sign a csrPem days issuer now draw = .ok issued) :
    issued.issuer = issuer := by
  obtain ⟨_, _, _, -, rfl⟩ := exists_recordOf_of_sign hsigned
  rfl

theorem issuedAt_of_sign (hsigned : sign a csrPem days issuer now draw = .ok issued) :
    issued.issuedAt = now := by
  obtain ⟨_, _, _, -, rfl⟩ := exists_recordOf_of_sign hsigned
  rfl

/-- The calendar has the end of every certificate that is issued. -/
theorem expires_of_sign (hsigned : sign a csrPem days issuer now draw = .ok issued) :
    issued.issuedAt.addDays? days = some issued.expiresAt := by
  obtain ⟨_, _, _, hexpires, rfl⟩ := exists_recordOf_of_sign hsigned
  exact hexpires

theorem lasts_of_sign (hdays : 0 < days)
    (hsigned : sign a csrPem days issuer now draw = .ok issued) : issued.Lasts days :=
  Instant.eq_of_addDays? hdays (expires_of_sign hsigned)

end Issuance

end CertAuthority
