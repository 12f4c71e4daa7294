import CertAuthority.Authority.Issuance
import CertAuthority.Proofs.Pem
import CertAuthority.Proofs.X509.Name

/-!
# Whose name a certificate bears

A request that gives several Common Names is checked for the first of them and gets a certificate
for the last.  The two are the same name unless the request says otherwise.
-/

namespace CertAuthority

open X509 Asn1

/-- The Common Name that a request gives last. -/
def Csr.lastCommonName? (csrPem : String) : Option String :=
  match Csr.read csrPem with
  | .ok request => request.subject.lastText? Oid.commonName
  | .error _ => none

/-- How many Common Names a request gives. -/
def Csr.countCommonNames (csrPem : String) : Nat :=
  match Csr.read csrPem with
  | .ok request => request.subject.attributes.countP (·.type = Oid.commonName)
  | .error _ => 0

/-- The Common Name that a reader takes from the text of a certificate. -/
def Authority.commonNameIn? (certificatePem : String) : Option String :=
  match Authority.readCertificate certificatePem with
  | .ok (_, certificate) => certificate.subject.commonName?
  | .error _ => none

namespace X509

variable {identifier : UInt8} {content rest after : Bytes}

theorem Algorithm.after_of_read {found : Algorithm}
    (hread : Algorithm.read (encode identifier content ++ rest) = some (found, after)) :
    after = rest := by
  simp only [Algorithm.read, Option.bind_eq_bind, Option.bind_eq_some_iff, Option.pure_def,
    Option.some.injEq, Prod.mk.injEq, Prod.exists] at hread
  obtain ⟨inner, tail, hinner, -, -, -, -, rfl⟩ := hread
  exact (Element.of_expect_encode hinner).2.2

theorem Validity.after_of_read {found : Validity}
    (hread : Validity.read (encode identifier content ++ rest) = some (found, after)) :
    after = rest := by
  simp only [Validity.read, Option.bind_eq_bind, Option.bind_eq_some_iff, Option.pure_def,
    Option.some.injEq, Prod.mk.injEq, Prod.exists] at hread
  obtain ⟨inner, tail, hinner, -, -, -, -, -, -, -, rfl⟩ := hread
  exact (Element.of_expect_encode hinner).2.2

theorem Name.after_of_read {found : Name}
    (hread : Name.read (Asn1.encode identifier content ++ rest) = some (found, after)) :
    after = rest := by
  simp only [Name.read, Option.bind_eq_bind, Option.bind_eq_some_iff, Option.pure_def,
    Option.some.injEq, Prod.mk.injEq, Prod.exists] at hread
  obtain ⟨inner, tail, hinner, -, rfl⟩ := hread
  exact (Element.of_expect_encode hinner).2.2

theorem Certificate.after_of_readVersion {version : Nat}
    (hread : Certificate.readVersion (encode (context 0) content ++ rest) = some (version, after)) :
    after = rest := by
  have hhead : (encode (context 0) content ++ rest).head? = some (context 0) := rfl
  simp only [Certificate.readVersion, Element.expectOptional, if_pos hhead, Option.bind_eq_bind,
    Option.bind_eq_some_iff, Option.map_eq_some_iff, Prod.exists] at hread
  obtain ⟨version?, tail, ⟨inner, last, hinner, heq⟩, hrest⟩ := hread
  cases heq
  simp only [Option.bind_eq_some_iff, Option.pure_def, Option.some.injEq, Prod.mk.injEq] at hrest
  obtain ⟨-, -, -, rfl⟩ := hrest
  exact (Element.of_expect_encode hinner).2.2

theorem SigningKey.exists_signatureAlgorithm (key : SigningKey) :
    ∃ content, key.signatureAlgorithm = encode sequence content := by
  cases key with
  | rsa key => exact ⟨_, rfl⟩
  | ecdsa curve secret point => cases curve <;> exact ⟨_, rfl⟩
  | ed25519 seed => exact ⟨_, rfl⟩

theorem Validity.exists_encode? {v : Validity} {written : Bytes}
    (hwritten : v.encode? = some written) : ∃ content, written = encode sequence content := by
  simp only [Validity.encode?, Option.bind_eq_bind, Option.bind_eq_some_iff, Option.pure_def,
    Option.some.injEq] at hwritten
  obtain ⟨first, -, last, -, rfl⟩ := hwritten
  exact ⟨_, rfl⟩

end X509

namespace Issuance

variable {a : Authority} {c : Candidate} {draw : Draw}

/-- The subject of a certificate that was written is read back. -/
theorem subject_of_readBody (hproper : c.subject.Proper) {serial : Bytes} (validity : Bytes)
    {certificate : Certificate}
    (hread : Certificate.readBody (encodeBody a c serial (encode sequence validity)) =
      some certificate) : certificate.subject = c.subject := by
  obtain ⟨algorithm, halgorithm⟩ := SigningKey.exists_signatureAlgorithm a.key
  rw [encodeBody, encodeSequence, ← List.append_nil (encode sequence _)] at hread
  simp only [Certificate.readBody, Option.bind_eq_bind, Option.bind_eq_some_iff, Option.pure_def,
    Option.some.injEq, Prod.exists] at hread
  obtain ⟨content, tail, hcontent, version, afterVersion, hversion, number, afterSerial, hserial,
    found, afterAlgorithm, hfound, issuer, afterIssuer, hissuer, dates, afterDates, hdates, subject,
    afterSubject, hsubject, key, afterKey, -, -, -, -, -, rfl⟩ := hread
  obtain ⟨-, rfl, rfl⟩ := Element.of_expect_encode hcontent
  simp only [List.flatten_cons] at hversion
  -- Each part is followed by the next one, wherever its own content ends.
  obtain rfl := Certificate.after_of_readVersion hversion
  obtain ⟨-, -, rfl⟩ := Element.of_expect_encode hserial
  rw [halgorithm] at hfound
  obtain rfl := Algorithm.after_of_read hfound
  obtain rfl := Name.after_of_read hissuer
  obtain rfl := Validity.after_of_read hdates
  exact (Name.of_read_encode hproper hsubject).1

theorem subject_of_read (hproper : c.subject.Proper) {validity der rest : Bytes}
    {certificate : Certificate}
    (hwritten : encodeCertificate a c (encode sequence validity) draw = some der)
    (hread : Certificate.read der = some (certificate, rest)) :
    certificate.subject = c.subject := by
  simp only [encodeCertificate, Option.map_eq_some_iff] at hwritten
  obtain ⟨signature, -, rfl⟩ := hwritten
  rw [encodeSequence, ← List.append_nil (encode sequence _)] at hread
  simp only [Certificate.read, Option.bind_eq_bind, Option.bind_eq_some_iff, Option.pure_def,
    Option.some.injEq, Prod.mk.injEq, Prod.exists] at hread
  obtain ⟨content, tail, hcontent, body, afterBody, hbody, found, hfound, -, -, -, -, -, -, rfl,
    -⟩ := hread
  obtain ⟨-, rfl, -⟩ := Element.of_expect_encode hcontent
  simp only [List.flatten_cons] at hbody
  obtain ⟨-, rfl, -⟩ := Element.of_read_encode hbody
  have hsubject : found.subject = c.subject := subject_of_readBody hproper validity hfound
  exact hsubject

/-- The record of a certificate is of what is read from its text. -/
theorem exists_of_issue {days : Nat} {issuer : CertificateIssuer} {now : Instant}
    {issued : IssuedCertificate} (hissued : issue a c days issuer now draw = .ok issued) :
    ∃ validity der certificate rest expiresAt,
      now.addDays? days = some expiresAt ∧
      encodeCertificate a c (encode sequence validity) draw = some der ∧
      Certificate.read der = some (certificate, rest) ∧
      issued = recordOf certificate der draw issuer now expiresAt := by
  unfold issue at hissued
  split at hissued
  · cases hissued
  · next expiresAt hexpires =>
      split at hissued
      · cases hissued
      · cases hissued
      · split at hissued
        · cases hissued
        · next written hwritten =>
            obtain ⟨validity, rfl⟩ := Validity.exists_encode? hwritten
            split at hissued
            · cases hissued
            · next der hder =>
                split at hissued
                · cases hissued
                · next certificate rest hread =>
                    cases hissued
                    exact ⟨validity, der, certificate, rest, expiresAt, hexpires, hder, hread, rfl⟩

/-- A certificate bears the Common Name of its candidate, in its text and in its record. -/
theorem commonName_of_issue (hproper : c.subject.Proper) {days : Nat}
    {issuer : CertificateIssuer} {now : Instant} {issued : IssuedCertificate}
    (hissued : issue a c days issuer now draw = .ok issued) :
    Authority.commonNameIn? issued.certificatePem = c.subject.commonName? ∧
      issued.subjectCommonName = c.subject.commonName?.getD "" := by
  obtain ⟨validity, der, certificate, rest, expiresAt, -, hwritten, hread, rfl⟩ :=
    exists_of_issue hissued
  have hsubject := subject_of_read hproper hwritten hread
  have hcontents : Pem.contentsOf (Pem.encodeUnix Authority.certificateTag der)
      Authority.certificateTag = .ok der :=
    Pem.contentsOf_encodeUnix (by decide) (by decide) der
  simp only [recordOf, Authority.commonNameIn?, Authority.readCertificate, hcontents, hread,
    hsubject, and_self]

end Issuance

namespace X509.Request

theorem proper_of_readInfo {input after : Bytes} {version : Nat} {subject : Name}
    {key : PublicKeyInfo} {attributes : List RequestAttribute}
    (hread : readInfo input = some ((version, subject, key, attributes), after)) :
    subject.Proper := by
  simp only [readInfo, Option.bind_eq_bind, Option.bind_eq_some_iff, Prod.exists] at hread
  obtain ⟨_, _, -, _, _, -, _, _, hname, _, _, -, _, _, -, _, -, hlast⟩ := hread
  simp only [Name.read, Option.bind_eq_bind, Option.bind_eq_some_iff, Option.pure_def,
    Option.some.injEq, Prod.mk.injEq, Prod.exists] at hname
  obtain ⟨content, _, -, rfl, -⟩ := hname
  split at hlast
  · cases hlast
    exact Name.proper_ofContent content
  · cases hlast

theorem proper_of_read {input : Bytes} {request : Request} (hread : read input = some request) :
    request.subject.Proper := by
  simp only [read, Option.bind_eq_bind, Option.bind_eq_some_iff, Option.pure_def,
    Option.some.injEq, Prod.exists] at hread
  obtain ⟨_, _, -, version, subject, key, attributes, _, hinfo, _, _, -, _, _, -, rfl⟩ := hread
  exact proper_of_readInfo hinfo

end X509.Request

section Names

variable {csrPem : String} {request : Request}

/-- The request in a text is the one in its block. -/
theorem Csr.exists_block_of_read (hread : Csr.read csrPem = .ok request) :
    ∃ block, Pem.parse csrPem = some block ∧ Request.read block.contents = some request := by
  unfold Csr.read Pem.contentsOf at hread
  split at hread
  · cases hread
  · next der hder =>
      split at hder
      · cases hder
      · split at hder
        · cases hder
        · next block hblock =>
            split at hder
            · cases hder
              split at hread
              · next found hfound =>
                  cases hread
                  exact ⟨block, hblock, hfound⟩
              · cases hread
            · cases hder

/-- The candidate in a text has the subject of the request, with one value for each type. -/
theorem Candidate.subject_of_read? {c : Candidate} (hread : Csr.read csrPem = .ok request)
    (hcandidate : Candidate.read? csrPem = some c) :
    c.subject.Proper ∧ c.subject.commonName? = request.subject.lastText? Oid.commonName := by
  obtain ⟨block, hblock, hrequest⟩ := Csr.exists_block_of_read hread
  simp only [Candidate.read?, hblock, hrequest, Option.bind_eq_bind, Option.bind_some,
    Candidate.ofRequest?] at hcandidate
  split at hcandidate
  · cases hcandidate
  · simp only [Option.bind_eq_some_iff, Option.pure_def, Option.some.injEq] at hcandidate
    obtain ⟨-, -, single, hsingle, -, -, rfl⟩ := hcandidate
    exact ⟨(Request.proper_of_read hrequest).singleValued? hsingle,
      Name.firstText?_of_singleValued? hsingle Oid.commonName⟩

/-- Whatever is signed is issued to the candidate that a request gives. -/
theorem Issuance.exists_issue_of_sign {a : Authority} {days : Nat} {issuer : CertificateIssuer}
    {now : Instant} {draw : Draw} {issued : IssuedCertificate}
    (hsigned : sign a csrPem days issuer now draw = .ok issued) :
    ∃ c, Candidate.read? csrPem = some c ∧ issue a c days issuer now draw = .ok issued := by
  unfold sign at hsigned
  split at hsigned
  · cases hsigned
  · next c hcandidate => exact ⟨c, hcandidate, hsigned⟩

/-- A certificate bears the Common Name that its request gives last. -/
theorem Issuance.commonName_of_sign {a : Authority} {days : Nat} {issuer : CertificateIssuer}
    {now : Instant} {draw : Draw} {issued : IssuedCertificate}
    (hread : Csr.read csrPem = .ok request)
    (hsigned : sign a csrPem days issuer now draw = .ok issued) :
    Authority.commonNameIn? issued.certificatePem = Csr.lastCommonName? csrPem ∧
      issued.subjectCommonName = (Csr.lastCommonName? csrPem).getD "" := by
  obtain ⟨c, hcandidate, hissued⟩ := exists_issue_of_sign hsigned
  obtain ⟨hproper, hsubject⟩ := Candidate.subject_of_read? hread hcandidate
  have hnames := commonName_of_issue hproper hissued
  rw [hsubject] at hnames
  simpa only [Csr.lastCommonName?, hread] using hnames

theorem Csr.identityOf_of_check {identity : SubjectIdentity} {key : KeyKind}
    (hcheck : Csr.check request = .ok (identity, key)) :
    Csr.identityOf request.subject = .ok identity := by
  unfold Csr.check at hcheck
  split at hcheck
  · cases hcheck
  · split at hcheck
    · cases hcheck
    · split at hcheck
      · cases hcheck
      · split at hcheck
        · cases hcheck
        · next hidentity =>
            cases hcheck
            exact hidentity

/-- A validated request bears the Common Name that it gives first, which is not empty. -/
theorem Csr.commonName_of_validate {csr : ValidatedCsr} (hvalid : Csr.validate csrPem = .ok csr) :
    ∃ request, Csr.read csrPem = .ok request ∧
      request.subject.commonName? = some csr.identity.commonName ∧
      csr.identity.commonName ≠ "" := by
  unfold Csr.validate at hvalid
  split at hvalid
  · cases hvalid
  · next request hread =>
      split at hvalid
      · cases hvalid
      · next identity key hcheck =>
          cases hvalid
          have hidentity := identityOf_of_check hcheck
          unfold Csr.identityOf at hidentity
          split at hidentity
          · cases hidentity
          · next commonName hname =>
              unfold SubjectIdentity.ofParts at hidentity
              split at hidentity
              · next hparsed =>
                  cases hidentity
                  refine ⟨request, hread, hname, ?_⟩
                  rintro rfl
                  cases hparsed
              · cases hidentity

/-- How the name on a certificate relates to the name for which its request was validated. -/
structure Bears (csrPem : String) (issued : IssuedCertificate) (commonName : String) : Prop where
  /-- The certificate bears the name that its request gives last. -/
  certificate : Authority.commonNameIn? issued.certificatePem = Csr.lastCommonName? csrPem
  /-- So it is the validated one if and only if the request gives that one last. -/
  record : issued.subjectCommonName = commonName ↔ Csr.lastCommonName? csrPem = some commonName
  /-- A request that gives one name leaves no doubt. -/
  alone : Csr.countCommonNames csrPem ≤ 1 → Csr.lastCommonName? csrPem = some commonName

/-- A certificate and the identity for which its request was validated. -/
theorem bears_of_sign {csr : ValidatedCsr} (hvalid : Csr.validate csrPem = .ok csr) {a : Authority}
    {days : Nat} {issuer : CertificateIssuer} {now : Instant} {draw : Issuance.Draw}
    {issued : IssuedCertificate}
    (hsigned : Issuance.sign a csrPem days issuer now draw = .ok issued) :
    Bears csrPem issued csr.identity.commonName := by
  obtain ⟨request, hread, hfirst, hnonempty⟩ := Csr.commonName_of_validate hvalid
  obtain ⟨hcertificate, hrecord⟩ := Issuance.commonName_of_sign hread hsigned
  refine ⟨hcertificate, ?_, ?_⟩
  · rw [hrecord]
    cases Csr.lastCommonName? csrPem with
    | none => simp [Ne.symm hnonempty]
    | some name => simp
  · intro honce
    simp only [Csr.countCommonNames, Csr.lastCommonName?, hread] at honce ⊢
    rw [← Name.firstText?_eq_lastText? honce]
    exact hfirst

end Names

end CertAuthority
