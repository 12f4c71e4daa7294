import CertAuthority.Proofs.Authority.Naming

/-!
# What the checks of a request have found

A request is admitted by its signature, the signature's algorithm, the kind of its key and its
subject; of these, and of the extensions that it asks for, a candidate for a certificate is made.
-/

namespace CertAuthority

open X509

namespace Csr

variable {request : Request} {identity : SubjectIdentity} {kind : KeyKind} {key : PublicKeyInfo}

/-- What the checks of a request have found. -/
structure Checked (request : Request) (identity : SubjectIdentity) (kind : KeyKind) : Prop where
  signed : request.isSelfSigned .uncompressed = true
  allowed : request.algorithm.oid ∈ allowedAlgorithms
  key : checkKey request.publicKey = .ok kind
  identity : identityOf request.subject = .ok identity

theorem checked_of_check (hcheck : check request = .ok (identity, kind)) :
    Checked request identity kind := by
  unfold check at hcheck
  split at hcheck
  · cases hcheck
  · next hsigned =>
      split at hcheck
      · cases hcheck
      · next hallowed =>
          split at hcheck
          · cases hcheck
          · next found hkey =>
              split at hcheck
              · cases hcheck
              · next hidentity =>
                  cases hcheck
                  exact ⟨by simpa using hsigned, by simpa using hallowed, hkey, hidentity⟩

theorem exists_checked_of_validate {csrPem : String} {csr : ValidatedCsr}
    (hvalid : validate csrPem = .ok csr) :
    ∃ request, read csrPem = .ok request ∧ Checked request csr.identity csr.key := by
  unfold validate at hvalid
  split at hvalid
  · cases hvalid
  · next request hread =>
      split at hvalid
      · cases hvalid
      · next identity kind hcheck =>
          cases hvalid
          exact ⟨request, hread, checked_of_check hcheck⟩

theorem check_of_checked (hchecked : Checked request identity kind) :
    check request = .ok (identity, kind) := by
  have hallowed : allowedAlgorithms.contains request.algorithm.oid = true := by
    simpa using hchecked.allowed
  simp only [check, hchecked.signed, hallowed, hchecked.key, hchecked.identity, Bool.not_true,
    Bool.false_eq_true, if_false]

/-- A text is admitted if its request passes the checks. -/
theorem validate_of_checked {csrPem : String} (hread : read csrPem = .ok request)
    (hchecked : Checked request identity kind) :
    validate csrPem = .ok ⟨csrPem, identity, kind⟩ := by
  simp only [validate, hread, check_of_checked hchecked]

/-- The request in a block is the one in its contents. -/
theorem read_encodeUnix {der : Bytes} (hread : Request.read der = some request) :
    read (Pem.encodeUnix tag der) = .ok request := by
  rw [read, Pem.contentsOf_encodeUnix (by decide) (by decide)]
  simp only [hread]

/-- That a public key is of a kind that is allowed. -/
def IsOfKind (key : PublicKeyInfo) : KeyKind → Prop
  | .ed25519 => key.algorithm.oid = Oid.ed25519
  | .ecdsa curve =>
    key.algorithm.oid = Oid.ecPublicKey ∧ key.algorithm.parameterOid? = some (curveOid curve) ∧
      curve ≠ .p521
  | .rsa bits =>
    key.algorithm.oid = Oid.rsaEncryption ∧ minRsaBits ≤ bits ∧
      (readRsaIntegers key.key).map (fun integers => rsaBits integers.1) = some bits

theorem isOfKind_of_checkKey (hkey : checkKey key = .ok kind) : IsOfKind key kind := by
  unfold checkKey at hkey
  dsimp only at hkey
  split at hkey
  · next hedwards =>
      cases hkey
      exact hedwards
  · split at hkey
    · next hcurve =>
        split at hkey
        · cases hkey
        · next oid hparameter =>
            split at hkey
            · next hoid =>
                cases hkey
                exact ⟨hcurve, hparameter.trans (congrArg some hoid), by decide⟩
            · split at hkey
              · next hoid =>
                  cases hkey
                  exact ⟨hcurve, hparameter.trans (congrArg some hoid), by decide⟩
              · cases hkey
    · split at hkey
      · next integers modulus exponent hintegers =>
          split at hkey
          · cases hkey
          · next hlarge =>
              cases hkey
              rw [Option.ite_none_right_eq_some] at hintegers
              exact ⟨hintegers.1, Nat.not_lt.mp hlarge, by rw [hintegers.2]; rfl⟩
      · cases hkey

theorem checkKey_of_isOfKind (hkind : IsOfKind key kind) : checkKey key = .ok kind := by
  have hedwards : Oid.ecPublicKey ≠ Oid.ed25519 ∧ Oid.rsaEncryption ≠ Oid.ed25519 := by decide
  have hcurve : Oid.rsaEncryption ≠ Oid.ecPublicKey := by decide
  cases kind with
  | ed25519 => exact if_pos hkind
  | ecdsa curve =>
      obtain ⟨hoid, hparameter, hsmall⟩ := hkind
      have hcurves : Oid.curveP384 ≠ Oid.curveP256 := by decide
      rw [checkKey, hoid, if_neg hedwards.1, if_pos rfl, hparameter]
      cases curve with
      | p256 => exact if_pos rfl
      | p384 => simp only [curveOid, if_neg hcurves, if_true]
      | p521 => exact absurd rfl hsmall
  | rsa bits =>
      obtain ⟨hoid, hlarge, hintegers⟩ := hkind
      obtain ⟨⟨modulus, exponent⟩, hread, rfl⟩ := Option.map_eq_some_iff.mp hintegers
      simp only [checkKey, hoid, if_neg hedwards.2, if_neg hcurve, if_true, hread,
        if_neg (Nat.not_lt.mpr hlarge)]

/-! ### What is wrong with a request -/

theorem category_of_contentsOf {text tag : String} {e : CaError}
    (herror : Pem.contentsOf text tag = .error e) : e.category = .validation := by
  unfold Pem.contentsOf at herror
  split at herror
  · cases herror
    rfl
  · split at herror
    · cases herror
      rfl
    · split at herror
      · cases herror
      · cases herror
        rfl

theorem category_of_read {csrPem : String} {e : CaError} (herror : read csrPem = .error e) :
    e.category = .validation := by
  unfold read at herror
  split at herror
  · next hcontents =>
      cases herror
      exact category_of_contentsOf hcontents
  · split at herror
    · cases herror
    · cases herror
      rfl

theorem category_of_checkKey {e : CaError} (herror : checkKey key = .error e) :
    e.category = .validation := by
  unfold checkKey at herror
  dsimp only at herror
  split at herror
  · cases herror
  · split at herror
    · split at herror
      · cases herror
        rfl
      · split at herror
        · cases herror
        · split at herror
          · cases herror
          · cases herror
            rfl
    · split at herror
      · split at herror
        · cases herror
          rfl
        · cases herror
      · cases herror
        rfl

theorem category_of_check {e : CaError} (herror : check request = .error e) :
    e.category = .validation := by
  unfold check at herror
  split at herror
  · cases herror
    rfl
  · split at herror
    · cases herror
      rfl
    · split at herror
      · next hkey =>
          cases herror
          exact category_of_checkKey hkey
      · split at herror
        · cases herror
          rfl
        · cases herror

/-- What is wrong with a request is a matter of validation. -/
theorem category_of_validate {csrPem : String} {e : CaError}
    (herror : validate csrPem = .error e) : e.category = .validation := by
  unfold validate at herror
  split at herror
  · next hread =>
      cases herror
      exact category_of_read hread
  · split at herror
    · next hcheck =>
        cases herror
        exact category_of_check hcheck
    · cases herror

end Csr

namespace Candidate

variable {request : Request} {c : Candidate}

/-- What a candidate takes from its request. -/
structure IsFrom (c : Candidate) (request : Request) : Prop where
  signed : request.isSelfSigned .any = true
  keyAlgorithm : keyAlgorithm? request.algorithm.oid = some c.keyAlgorithm
  subject : request.subject.singleValued? = some c.subject
  key : c.key = request.publicKey.key
  names : (request.requestedExtensions.mapM granted?).map List.flatten = some c.alternativeNames

theorem ofRequest?_eq_some_iff : ofRequest? request = some c ↔ c.IsFrom request := by
  constructor
  · intro hcandidate
    unfold ofRequest? at hcandidate
    split at hcandidate
    · cases hcandidate
    · next hsigned =>
        simp only [Option.bind_eq_bind, Option.bind_eq_some_iff, Option.pure_def,
          Option.some.injEq] at hcandidate
        obtain ⟨algorithm, halgorithm, subject, hsubject, names, hnames, rfl⟩ := hcandidate
        exact ⟨by simpa using hsigned, halgorithm, hsubject, rfl, by rw [hnames]; rfl⟩
  · rintro ⟨hsigned, halgorithm, hsubject, hkey, hnames⟩
    obtain ⟨names, hgranted, hflat⟩ := Option.map_eq_some_iff.mp hnames
    rw [ofRequest?, if_neg (by simp [hsigned])]
    simp only [halgorithm, hsubject, hgranted, Option.bind_eq_bind, Option.bind_some,
      Option.pure_def, hflat, ← hkey]

/-- The candidate in a text is the one in the text's request. -/
theorem read?_eq_some_iff {csrPem : String} (hread : Csr.read csrPem = .ok request) :
    read? csrPem = some c ↔ c.IsFrom request := by
  obtain ⟨block, hblock, hrequest⟩ := Csr.exists_block_of_read hread
  rw [← ofRequest?_eq_some_iff, read?, hblock]
  simp only [Option.bind_eq_bind, Option.bind_some, hrequest]

end Candidate

end CertAuthority
