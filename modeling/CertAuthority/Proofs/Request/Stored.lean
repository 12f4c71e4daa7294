import CertAuthority.Proofs.Json.Record
import CertAuthority.Request.Json
import CertAuthority.Store.Call

/-!
# Requests as they are stored

The record of a request opens one level, and the entry that keeps it under its revision another one.
What the agent tells of itself stands inside both.  So a request is read back from what was written
of it if and only if these two levels are left to the reader besides those of the agent's own value.
-/

namespace CertAuthority

open Json (Codec Fields Reader bind_of_eq read_instant read_address all_writeOption isValid_of_read
  isValid_of_optional)

namespace CertificateRequest

/-- What holds of a request that was read from a text, or entered by a clock that shows instants. -/
structure IsSound (r : CertificateRequest) : Prop where
  submittedAt : r.submittedAt.IsValid
  expiresAt : ∀ t, r.expiresAt = some t → t.IsValid
  approvedAt : ∀ t, r.approvedAt = some t → t.IsValid
  rejectedAt : ∀ t, r.rejectedAt = some t → t.IsValid
  agentInfo : r.agentInfo.IsValue

/-- That all numbers that the agent tells are integers. -/
def IsIntegral (r : CertificateRequest) : Prop :=
  r.agentInfo.IsIntegral

section Written

variable {r : CertificateRequest}

theorem read_status (s : RequestStatus) (level : Nat) :
    Codec.read level (Json.Tree.ofJson (Codec.write s)) = some s := by
  cases s <;> rfl

/-- The identity in a request opens a level of its own. -/
theorem read_subject (subject : SubjectIdentity) (level : Nat) :
    Codec.read (level + 1) (Json.Tree.ofJson (Codec.write subject)) = some subject := by
  change SubjectIdentity.read (level + 1) (Json.Tree.ofJson subject.toJson) = _
  obtain ⟨f, hread, hf⟩ : ∃ f, Fields.read SubjectIdentity.fieldNames false (level + 1)
      (Json.Tree.ofJson subject.toJson) = some f ∧ f.Gives level _ :=
    Fields.read_ofJson _ _ _ _ (by simp [SubjectIdentity.fieldNames]) (by simp)
  have hname : f.required "common_name" Reader.text = some subject.commonName :=
    hf.required (v := .string subject.commonName) (by simp) _
  have hunit : f.optional "organizational_unit" Reader.text = some subject.organizationalUnit :=
    hf.optional_text (by simp [Json.text?, Json.writeOption]; rfl) fun a _ => ⟨a, rfl, rfl⟩
  have hhost : f.required "hostname" Reader.text = some subject.hostname :=
    hf.required (v := .string subject.hostname) (by simp) _
  have huser : f.required "username" Reader.text = some subject.username :=
    hf.required (v := .string subject.username) (by simp) _
  rw [SubjectIdentity.read, bind_of_eq hread, bind_of_eq hname, bind_of_eq hunit, bind_of_eq hhost,
    bind_of_eq huser]
  rfl

/-- A request is read back if and only if the agent's own value is not nested too deep. -/
theorem read_toJson (hr : r.IsSound) (level : Nat) :
    Codec.read (level + 2) (Json.Tree.ofJson (Codec.write r)) =
      if r.agentInfo.depth ≤ level + 1 then some r else none := by
  change read (level + 1 + 1) (Json.Tree.ofJson r.toJson) = _
  obtain ⟨f, hread, hf⟩ : ∃ f, Fields.read fieldNames false (level + 1 + 1)
      (Json.Tree.ofJson r.toJson) = some f ∧ f.Gives (level + 1) _ :=
    Fields.read_ofJson _ _ _ _ (by simp [fieldNames]) (by simp)
  have hid : f.required "request_id" Codec.read = some r.requestId :=
    hf.required (v := Codec.write r.requestId) (by simp) _
  have hpem : f.required "csr_pem" Codec.read = some r.csrPem :=
    hf.required (v := Codec.write r.csrPem) (by simp) _
  have hsubject : f.required "subject" Codec.read = some r.subject :=
    (hf.required (v := Codec.write r.subject) (by simp) _).trans (read_subject r.subject level)
  have hsource : f.required "source_ip" Codec.read = some r.sourceIp :=
    (hf.required (v := Codec.write r.sourceIp) (by simp) _).trans (read_address r.sourceIp _)
  have htoken : f.required "bootstrap_token_id" Codec.read = some r.bootstrapTokenId :=
    hf.required (v := Codec.write r.bootstrapTokenId) (by simp) _
  have hstatus : f.required "status" Codec.read = some r.status :=
    (hf.required (v := Codec.write r.status) (by simp) _).trans (read_status r.status _)
  have hsubmitted : f.required "submitted_at" Codec.read = some r.submittedAt :=
    (hf.required (v := Codec.write r.submittedAt) (by simp) _).trans
      (read_instant hr.submittedAt _)
  have hinfo : f.defaulted "agent_info" Reader.json .null =
      if r.agentInfo.depth ≤ level + 1 then some r.agentInfo else none :=
    (hf.defaulted (v := r.agentInfo) (by simp) _ _).trans
      (Json.Tree.toJson?_ofJson (level + 1) r.agentInfo hr.agentInfo)
  have hcertificate : f.optional "certificate_pem" Codec.read = some r.certificatePem :=
    hf.optional_text (by simp) fun a _ => ⟨a, rfl, rfl⟩
  have hserial : f.optional "serial_number" Codec.read = some r.serialNumber :=
    hf.optional_text (by simp) fun a _ => ⟨a.text, rfl, rfl⟩
  have hexpires : f.optional "expires_at" Codec.read = some r.expiresAt :=
    hf.optional_text (by simp) fun t ht => ⟨_, rfl, read_instant (hr.expiresAt t ht) _⟩
  have happroved : f.optional "approved_at" Codec.read = some r.approvedAt :=
    hf.optional_text (by simp) fun t ht => ⟨_, rfl, read_instant (hr.approvedAt t ht) _⟩
  have happrover : f.optional "approved_by" Codec.read = some r.approvedBy :=
    hf.optional_text (by simp) fun a _ => ⟨a, rfl, rfl⟩
  have hcomment : f.optional "approval_comment" Codec.read = some r.approvalComment :=
    hf.optional_text (by simp) fun a _ => ⟨a, rfl, rfl⟩
  have hrejected : f.optional "rejected_at" Codec.read = some r.rejectedAt :=
    hf.optional_text (by simp) fun t ht => ⟨_, rfl, read_instant (hr.rejectedAt t ht) _⟩
  have hrejecter : f.optional "rejected_by" Codec.read = some r.rejectedBy :=
    hf.optional_text (by simp) fun a _ => ⟨a, rfl, rfl⟩
  have hreason : f.optional "reject_reason" Codec.read = some r.rejectReason :=
    hf.optional_text (by simp) fun a _ => ⟨a, rfl, rfl⟩
  rw [read, bind_of_eq hread, bind_of_eq hid, bind_of_eq hpem, bind_of_eq hsubject,
    bind_of_eq hsource, bind_of_eq htoken, bind_of_eq hstatus, bind_of_eq hsubmitted, hinfo]
  split
  · rw [bind_of_eq rfl, bind_of_eq hcertificate, bind_of_eq hserial, bind_of_eq hexpires,
      bind_of_eq happroved, bind_of_eq happrover, bind_of_eq hcomment, bind_of_eq hrejected,
      bind_of_eq hrejecter, bind_of_eq hreason]
    rfl
  · rfl

end Written

section Read

/-- What is read as a request is sound, and the agent's own value lies one level into it. -/
theorem isSound_of_read {level : Nat} {t : Json.Tree} {r : CertificateRequest}
    (hall : t.All JsonNumber.Fits) (hread : Codec.read level t = some r) :
    r.IsSound ∧ r.agentInfo.depth < level := by
  change read level t = some r at hread
  obtain ⟨f, hf, hread⟩ := Option.bind_eq_some_iff.mp hread
  obtain ⟨id, -, hread⟩ := Option.bind_eq_some_iff.mp hread
  obtain ⟨pem, -, hread⟩ := Option.bind_eq_some_iff.mp hread
  obtain ⟨subject, -, hread⟩ := Option.bind_eq_some_iff.mp hread
  obtain ⟨source, -, hread⟩ := Option.bind_eq_some_iff.mp hread
  obtain ⟨token, -, hread⟩ := Option.bind_eq_some_iff.mp hread
  obtain ⟨status, -, hread⟩ := Option.bind_eq_some_iff.mp hread
  obtain ⟨submitted, hsubmitted, hread⟩ := Option.bind_eq_some_iff.mp hread
  obtain ⟨info, hinfo, hread⟩ := Option.bind_eq_some_iff.mp hread
  obtain ⟨certificate, -, hread⟩ := Option.bind_eq_some_iff.mp hread
  obtain ⟨serial, -, hread⟩ := Option.bind_eq_some_iff.mp hread
  obtain ⟨expires, hexpires, hread⟩ := Option.bind_eq_some_iff.mp hread
  obtain ⟨approved, happroved, hread⟩ := Option.bind_eq_some_iff.mp hread
  obtain ⟨approver, -, hread⟩ := Option.bind_eq_some_iff.mp hread
  obtain ⟨comment, -, hread⟩ := Option.bind_eq_some_iff.mp hread
  obtain ⟨rejected, hrejected, hread⟩ := Option.bind_eq_some_iff.mp hread
  obtain ⟨rejecter, -, hread⟩ := Option.bind_eq_some_iff.mp hread
  obtain ⟨reason, -, hread⟩ := Option.bind_eq_some_iff.mp hread
  cases hread
  obtain ⟨hlevel, hparts⟩ := Fields.all_of_read hall hf
  obtain ⟨field, -, hsubmitted⟩ := Fields.exists_of_required hsubmitted
  have hvalue : info.IsValue ∧ info.depth < level := by
    rcases Fields.exists_of_defaulted hinfo with rfl | ⟨field, hfield, hinfo⟩
    · exact ⟨trivial, Nat.zero_lt_of_lt hlevel⟩
    · obtain ⟨hvalue, hdepth⟩ := Json.Tree.yields_of_toJson? field.2 (hparts field hfield) hinfo
      exact ⟨hvalue, Nat.lt_of_le_of_lt hdepth hlevel⟩
  exact ⟨⟨isValid_of_read hsubmitted, isValid_of_optional hexpires, isValid_of_optional happroved,
    isValid_of_optional hrejected, hvalue.1⟩, hvalue.2⟩

end Read

/-- All that is written of a request can be written as text. -/
theorem writes_toJson {r : CertificateRequest} (hinfo : r.agentInfo.IsValue)
    (hintegral : r.IsIntegral) : (Codec.write r).All Json.Writes fun _ => True := by
  have hagent : r.agentInfo.All Json.Writes fun _ => True :=
    (hinfo.writes hintegral).mono (fun _ h => h) fun _ _ => trivial
  have hunit : (Json.text? r.subject.organizationalUnit).All Json.Writes fun _ => True :=
    all_writeOption fun unit => ⟨unit, rfl⟩
  have hsubject : (Codec.write r.subject).All Json.Writes fun _ => True :=
    ⟨trivial, trivial, hunit, trivial, trivial, trivial⟩
  exact ⟨trivial, trivial, trivial, hsubject, trivial, trivial, trivial, trivial, hagent,
    all_writeOption fun a => ⟨a, rfl⟩, all_writeOption fun a => ⟨a.text, rfl⟩,
    all_writeOption fun t => ⟨_, rfl⟩, all_writeOption fun t => ⟨_, rfl⟩,
    all_writeOption fun a => ⟨a, rfl⟩, all_writeOption fun a => ⟨a, rfl⟩,
    all_writeOption fun t => ⟨_, rfl⟩, all_writeOption fun a => ⟨a, rfl⟩,
    all_writeOption fun a => ⟨a, rfl⟩, trivial⟩

end CertificateRequest

namespace Versioned

/-- What holds of an entry that was read from a text, or entered by a clock that shows instants. -/
structure IsSound (entry : Versioned CertificateRequest) : Prop where
  value : entry.value.IsSound
  revision : entry.revision < Nat.pow 2 64

/-- What is read as an entry is sound, and the agent's own value lies two levels into it. -/
theorem isSound_of_read {level : Nat} {t : Json.Tree} {entry : Versioned CertificateRequest}
    (hall : t.All JsonNumber.Fits) (hread : Codec.read level t = some entry) :
    entry.IsSound ∧ entry.value.agentInfo.depth + 1 < level := by
  obtain ⟨f, hf, hread⟩ := Option.bind_eq_some_iff.mp hread
  obtain ⟨value, hvalue, hread⟩ := Option.bind_eq_some_iff.mp hread
  obtain ⟨revision, hrevision, hread⟩ := Option.bind_eq_some_iff.mp hread
  cases hread
  obtain ⟨hlevel, hparts⟩ := Fields.all_of_read hall hf
  obtain ⟨field, hfield, hvalue⟩ := Fields.exists_of_required hvalue
  obtain ⟨hsound, hdepth⟩ := CertificateRequest.isSound_of_read (hparts field hfield) hvalue
  obtain ⟨field, -, hrevision⟩ := Fields.exists_of_required hrevision
  exact ⟨⟨hsound, Json.lt_of_natBelow hrevision⟩, Nat.lt_of_le_of_lt hdepth hlevel⟩

end Versioned

end CertAuthority
