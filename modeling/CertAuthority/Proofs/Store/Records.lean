import CertAuthority.Certificate.Json
import CertAuthority.Proofs.Json.Record
import CertAuthority.Token.Json

/-!
# Tokens, certificates and revocations as they are stored

Each of these records is read back from what was written of it: all texts, all addresses, and all
instants that there are.  A token's sources and a certificate's issuer open a level inside the
record.  What is read holds instants that there are, so that it is read back again.
-/

namespace CertAuthority

open Json (Codec Fields Reader bind_of_eq read_instant read_address read_addressSet all_writeOption
  isValid_of_read isValid_of_optional)

namespace BootstrapToken

/-- What holds of a token that was read from a text, or issued by a clock that shows instants. -/
structure IsSound (token : BootstrapToken) : Prop where
  expiresAt : token.expiresAt.IsValid
  createdAt : token.createdAt.IsValid
  usedAt : ∀ t, token.usedAt = some t → t.IsValid

variable {token : BootstrapToken}

theorem read_toJson (htoken : token.IsSound) (level : Nat) :
    Codec.read (level + 2) (Json.Tree.ofJson (Codec.write token)) = some token := by
  change read (level + 1 + 1) (Json.Tree.ofJson token.toJson) = _
  obtain ⟨f, hread, hf⟩ : ∃ f, Fields.read fieldNames false (level + 1 + 1)
      (Json.Tree.ofJson token.toJson) = some f ∧ f.Gives (level + 1) _ :=
    Fields.read_ofJson _ _ _ _ (by simp [fieldNames]) (by simp)
  have hid : f.required "token_id" Codec.read = some token.tokenId :=
    hf.required (v := Codec.write token.tokenId) (by simp) _
  have hname : f.optional "expected_common_name" Codec.read = some token.expectedCommonName :=
    hf.optional_text (by simp) fun a _ => ⟨a, rfl, rfl⟩
  -- An empty set is an array and an absent one is null, so that they are not mixed up.
  have hsources : f.optional "allowed_source_ips" Codec.read = some token.allowedSourceIps :=
    hf.optional_some (by simp) fun set _ => ⟨nofun, read_addressSet set level⟩
  have hexpires : f.required "expires_at" Codec.read = some token.expiresAt :=
    (hf.required (v := Codec.write token.expiresAt) (by simp) _).trans
      (read_instant htoken.expiresAt _)
  have hcreated : f.required "created_at" Codec.read = some token.createdAt :=
    (hf.required (v := Codec.write token.createdAt) (by simp) _).trans
      (read_instant htoken.createdAt _)
  have hcreator : f.required "created_by" Codec.read = some token.createdBy :=
    hf.required (v := Codec.write token.createdBy) (by simp) _
  have hused : f.optional "used_at" Codec.read = some token.usedAt :=
    hf.optional_text (by simp) fun t ht => ⟨_, rfl, read_instant (htoken.usedAt t ht) _⟩
  have huser : f.optional "used_by_common_name" Codec.read = some token.usedByCommonName :=
    hf.optional_text (by simp) fun a _ => ⟨a, rfl, rfl⟩
  have hfrom : f.optional "used_from_ip" Codec.read = some token.usedFromIp :=
    hf.optional_text (by simp) fun x _ => ⟨_, rfl, read_address x _⟩
  have hcomment : f.required "comment" Codec.read = some token.comment :=
    hf.required (v := Codec.write token.comment) (by simp) _
  rw [read, bind_of_eq hread, bind_of_eq hid, bind_of_eq hname, bind_of_eq hsources,
    bind_of_eq hexpires, bind_of_eq hcreated, bind_of_eq hcreator, bind_of_eq hused,
    bind_of_eq huser, bind_of_eq hfrom, bind_of_eq hcomment]
  rfl

theorem isSound_of_read {level : Nat} {t : Json.Tree} (hread : Codec.read level t = some token) :
    token.IsSound := by
  change read level t = some token at hread
  obtain ⟨f, -, hread⟩ := Option.bind_eq_some_iff.mp hread
  obtain ⟨id, -, hread⟩ := Option.bind_eq_some_iff.mp hread
  obtain ⟨name, -, hread⟩ := Option.bind_eq_some_iff.mp hread
  obtain ⟨sources, -, hread⟩ := Option.bind_eq_some_iff.mp hread
  obtain ⟨expires, hexpires, hread⟩ := Option.bind_eq_some_iff.mp hread
  obtain ⟨created, hcreated, hread⟩ := Option.bind_eq_some_iff.mp hread
  obtain ⟨creator, -, hread⟩ := Option.bind_eq_some_iff.mp hread
  obtain ⟨used, hused, hread⟩ := Option.bind_eq_some_iff.mp hread
  obtain ⟨user, -, hread⟩ := Option.bind_eq_some_iff.mp hread
  obtain ⟨source, -, hread⟩ := Option.bind_eq_some_iff.mp hread
  obtain ⟨comment, -, hread⟩ := Option.bind_eq_some_iff.mp hread
  cases hread
  obtain ⟨field, -, hexpires⟩ := Fields.exists_of_required hexpires
  obtain ⟨other, -, hcreated⟩ := Fields.exists_of_required hcreated
  exact ⟨isValid_of_read hexpires, isValid_of_read hcreated, isValid_of_optional hused⟩

/-- All that is written of a token can be written as text. -/
theorem writes_toJson (token : BootstrapToken) :
    (Codec.write token).All Json.Writes fun _ => True := by
  have hsources : (Json.writeOption token.allowedSourceIps).All Json.Writes fun _ => True := by
    cases token.allowedSourceIps with
    | none => trivial
    | some set => exact Json.all_addressSet set
  exact ⟨trivial, trivial, all_writeOption fun a => ⟨a, rfl⟩, hsources, trivial, trivial, trivial,
    all_writeOption fun t => ⟨_, rfl⟩, all_writeOption fun a => ⟨a, rfl⟩,
    all_writeOption fun x => ⟨_, rfl⟩, trivial, trivial⟩

end BootstrapToken

namespace CertificateIssuer

/-- An issuer opens a level of its own, unless it is a bare name. -/
theorem read_toJson (issuer : CertificateIssuer) (level : Nat) :
    Codec.read (level + 1) (Json.Tree.ofJson (Codec.write issuer)) = some issuer := by
  cases issuer <;> rfl

theorem writes_toJson (issuer : CertificateIssuer) :
    (Codec.write issuer).All Json.Writes fun _ => True := by
  cases issuer with
  | request id => exact ⟨trivial, trivial, trivial⟩
  | autoRenewal => trivial

end CertificateIssuer

namespace IssuedCertificate

/-- What holds of a certificate that was read from a text, or issued by a clock that shows
instants. -/
structure IsSound (issued : IssuedCertificate) : Prop where
  issuedAt : issued.issuedAt.IsValid
  expiresAt : issued.expiresAt.IsValid

variable {issued : IssuedCertificate}

theorem read_toJson (hissued : issued.IsSound) (level : Nat) :
    Codec.read (level + 2) (Json.Tree.ofJson (Codec.write issued)) = some issued := by
  change read (level + 1 + 1) (Json.Tree.ofJson issued.toJson) = _
  obtain ⟨f, hread, hf⟩ : ∃ f, Fields.read fieldNames false (level + 1 + 1)
      (Json.Tree.ofJson issued.toJson) = some f ∧ f.Gives (level + 1) _ :=
    Fields.read_ofJson _ _ _ _ (by simp [fieldNames]) (by simp)
  have hserial : f.required "serial_number" Codec.read = some issued.serialNumber :=
    hf.required (v := Codec.write issued.serialNumber) (by simp) _
  have hname : f.required "subject_common_name" Codec.read = some issued.subjectCommonName :=
    hf.required (v := Codec.write issued.subjectCommonName) (by simp) _
  have hsubject : f.required "subject_dn" Codec.read = some issued.subjectDn :=
    hf.required (v := Codec.write issued.subjectDn) (by simp) _
  have hpem : f.required "certificate_pem" Codec.read = some issued.certificatePem :=
    hf.required (v := Codec.write issued.certificatePem) (by simp) _
  have hfingerprint : f.required "fingerprint_sha256" Codec.read = some issued.fingerprintSha256 :=
    hf.required (v := Codec.write issued.fingerprintSha256) (by simp) _
  have hbegins : f.required "issued_at" Codec.read = some issued.issuedAt :=
    (hf.required (v := Codec.write issued.issuedAt) (by simp) _).trans
      (read_instant hissued.issuedAt _)
  have hexpires : f.required "expires_at" Codec.read = some issued.expiresAt :=
    (hf.required (v := Codec.write issued.expiresAt) (by simp) _).trans
      (read_instant hissued.expiresAt _)
  have hissuer : f.required "issuer" Codec.read = some issued.issuer :=
    (hf.required (v := Codec.write issued.issuer) (by simp) _).trans
      (issued.issuer.read_toJson level)
  rw [read, bind_of_eq hread, bind_of_eq hserial, bind_of_eq hname, bind_of_eq hsubject,
    bind_of_eq hpem, bind_of_eq hfingerprint, bind_of_eq hbegins, bind_of_eq hexpires,
    bind_of_eq hissuer]
  rfl

theorem isSound_of_read {level : Nat} {t : Json.Tree} (hread : Codec.read level t = some issued) :
    issued.IsSound := by
  change read level t = some issued at hread
  obtain ⟨f, -, hread⟩ := Option.bind_eq_some_iff.mp hread
  obtain ⟨serial, -, hread⟩ := Option.bind_eq_some_iff.mp hread
  obtain ⟨name, -, hread⟩ := Option.bind_eq_some_iff.mp hread
  obtain ⟨subject, -, hread⟩ := Option.bind_eq_some_iff.mp hread
  obtain ⟨pem, -, hread⟩ := Option.bind_eq_some_iff.mp hread
  obtain ⟨fingerprint, -, hread⟩ := Option.bind_eq_some_iff.mp hread
  obtain ⟨begins, hbegins, hread⟩ := Option.bind_eq_some_iff.mp hread
  obtain ⟨expires, hexpires, hread⟩ := Option.bind_eq_some_iff.mp hread
  obtain ⟨issuer, -, hread⟩ := Option.bind_eq_some_iff.mp hread
  cases hread
  obtain ⟨field, -, hbegins⟩ := Fields.exists_of_required hbegins
  obtain ⟨other, -, hexpires⟩ := Fields.exists_of_required hexpires
  exact ⟨isValid_of_read hbegins, isValid_of_read hexpires⟩

theorem writes_toJson (issued : IssuedCertificate) :
    (Codec.write issued).All Json.Writes fun _ => True :=
  ⟨trivial, trivial, trivial, trivial, trivial, trivial, trivial, trivial,
    issued.issuer.writes_toJson, trivial⟩

end IssuedCertificate

namespace Revocation

/-- What holds of a revocation that was read from a text, or entered by a clock that shows
instants. -/
structure IsSound (revocation : Revocation) : Prop where
  revokedAt : revocation.revokedAt.IsValid

variable {revocation : Revocation}

theorem read_toJson (hrevocation : revocation.IsSound) (level : Nat) :
    Codec.read (level + 1) (Json.Tree.ofJson (Codec.write revocation)) = some revocation := by
  change read (level + 1) (Json.Tree.ofJson revocation.toJson) = _
  obtain ⟨f, hread, hf⟩ : ∃ f, Fields.read ["serial_number", "revoked_at", "revoked_by"] false
      (level + 1) (Json.Tree.ofJson revocation.toJson) = some f ∧ f.Gives level _ :=
    Fields.read_ofJson _ _ _ _ (by simp) (by simp)
  have hserial : f.required "serial_number" Codec.read = some revocation.serialNumber :=
    hf.required (v := Codec.write revocation.serialNumber) (by simp) _
  have hrevoked : f.required "revoked_at" Codec.read = some revocation.revokedAt :=
    (hf.required (v := Codec.write revocation.revokedAt) (by simp) _).trans
      (read_instant hrevocation.revokedAt _)
  have hrevoker : f.required "revoked_by" Codec.read = some revocation.revokedBy :=
    hf.required (v := Codec.write revocation.revokedBy) (by simp) _
  rw [read, bind_of_eq hread, bind_of_eq hserial, bind_of_eq hrevoked, bind_of_eq hrevoker]
  rfl

theorem isSound_of_read {level : Nat} {t : Json.Tree}
    (hread : Codec.read level t = some revocation) : revocation.IsSound := by
  change read level t = some revocation at hread
  obtain ⟨f, -, hread⟩ := Option.bind_eq_some_iff.mp hread
  obtain ⟨serial, -, hread⟩ := Option.bind_eq_some_iff.mp hread
  obtain ⟨revoked, hrevoked, hread⟩ := Option.bind_eq_some_iff.mp hread
  obtain ⟨revoker, -, hread⟩ := Option.bind_eq_some_iff.mp hread
  cases hread
  obtain ⟨field, -, hrevoked⟩ := Fields.exists_of_required hrevoked
  exact ⟨isValid_of_read hrevoked⟩

theorem writes_toJson (revocation : Revocation) :
    (Codec.write revocation).All Json.Writes fun _ => True :=
  ⟨trivial, trivial, trivial, trivial, trivial⟩

end Revocation

end CertAuthority
