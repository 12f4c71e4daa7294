import CertAuthority.Proofs.Office.Hosted
import CertAuthority.Proofs.Request.Custody
import CertAuthority.Proofs.Request.Record

/-!
# What the ledger asks of a host

A request is entered as it can be written, and a decision changes one that was read to one that can
be read again.  An agent's value is never nested deeper by a decision: so it is only entering a
request that may bring one that cannot be read.
-/

namespace CertAuthority

section Rows

variable {r decided : CertificateRequest} {now : Instant}

theorem Ledger.Submission.isStorable_entry {submission : Ledger.Submission}
    (hvalue : submission.agentInfo.IsValue) (hintegral : submission.agentInfo.IsIntegral)
    (id : RequestId) (hnow : now.IsValid) : (submission.entry id now).IsStorable :=
  ⟨⟨hnow, nofun, nofun, nofun, hvalue⟩, hintegral⟩

theorem CertificateRequest.IsReadable.approved (hr : r.IsReadable) {issued : IssuedCertificate}
    (hexpires : issued.expiresAt.IsValid) (hnow : now.IsValid) {approver comment : String}
    (happroved : r.markApproved issued approver comment now = .ok decided) : decided.IsReadable := by
  obtain ⟨-, rfl⟩ := CertificateRequest.markApproved_eq happroved
  obtain ⟨⟨hsound, hintegral⟩, hdepth⟩ := hr
  refine ⟨⟨{ hsound with expiresAt := fun t ht => ?_, approvedAt := fun t ht => ?_ }, hintegral⟩,
    hdepth⟩
  · cases ht
    exact hexpires
  · cases ht
    exact hnow

theorem CertificateRequest.IsReadable.rejected (hr : r.IsReadable) (hnow : now.IsValid)
    {rejecter reason : String} (hrejected : r.markRejected rejecter reason now = .ok decided) :
    decided.IsReadable := by
  obtain ⟨-, rfl⟩ := CertificateRequest.markRejected_eq hrejected
  obtain ⟨⟨hsound, hintegral⟩, hdepth⟩ := hr
  refine ⟨⟨{ hsound with rejectedAt := fun t ht => ?_ }, hintegral⟩, hdepth⟩
  cases ht
  exact hnow

end Rows

namespace Ledger

open Procedure (heeds_ofExcept heeds_query)

/-- That no requests are shown but those of a kind, and that these may be written back. -/
structure Confined (told : (e : Effect) → e.Reply → Prop) (asked : Effect → Prop)
    (kind : CertificateRequest → Prop) : Prop where
  shown : ∀ {key : String} {entry : Versioned CertificateRequest},
    told (.table .requests (.get key)) (.ok (some entry)) → kind entry.value
  update : ∀ {r : CertificateRequest}, kind r → ∀ key revision,
    asked (.table .requests (.update key r revision))
  /-- Whatever is asked of other tables may be asked. -/
  other : ∀ {e : Effect}, e.writesTo .requests = false → asked e

section Approval

variable {told : (e : Effect) → e.Reply → Prop} {asked : Effect → Prop}
variable {kind : CertificateRequest → Prop}

/-- A request that is found is of the kind that is shown. -/
theorem heeds_find {id : RequestId} (hasked : asked (.table .requests (.get id.text)))
    (hshown : ∀ {entry : Versioned CertificateRequest},
      told (.table .requests (.get id.text)) (.ok (some entry)) → kind entry.value) :
    (find id).Heeds told asked fun current => kind current.value := by
  have hget : (Procedure.query .requests (.get id.text)).Heeds told asked
      fun found : Option (Versioned CertificateRequest) =>
        ∀ current, found = some current → kind current.value := by
    refine heeds_query hasked ?_
    rintro found htold current rfl
    exact hshown htold
  refine hget.bind fun found hfound => ?_
  cases found with
  | none => trivial
  | some current => exact hfound current rfl

theorem heeds_record {issued : IssuedCertificate}
    (hasked : asked (.table .certificates (.create issued.serialNumber.text issued))) :
    (Registry.record issued).Heeds told asked fun _ => True :=
  (heeds_query hasked fun _ _ => trivial).bind fun _ _ => trivial

/-- An approval that passes its check writes a decision on what it was shown, enters what it has
signed, and gives that. -/
theorem heeds_approve {sign : Signer} {maxDays : Nat} {approval : Approval}
    {signed : IssuedCertificate → Prop} (hquiet : ∀ e, e.asksWrite = false → asked e)
    (hshown : ∀ {entry : Versioned CertificateRequest},
      told (.table .requests (.get approval.requestId.text)) (.ok (some entry)) → kind entry.value)
    (hsign : ∀ csrPem, (sign csrPem approval.days (.request approval.requestId)).Heeds told asked
      signed)
    (hdecide : approval.check maxDays = .ok () → ∀ r decided issued now, kind r → signed issued →
      told .now now → r.markApproved issued approval.approver approval.comment now = .ok decided →
        ∀ revision, asked (.table .requests (.update approval.requestId.text decided revision)))
    (hrecord : ∀ issued, signed issued →
      asked (.table .certificates (.create issued.serialNumber.text issued))) :
    (approve sign maxDays approval).Heeds told asked signed := by
  unfold Ledger.approve
  split
  · trivial
  · next hcheck =>
      refine ⟨hquiet _ rfl, fun _ _ => Procedure.Heeds.ensuring ?_ (hquiet _ rfl)⟩
      refine (heeds_find (hquiet _ rfl) hshown).bind fun current hcurrent => ?_
      refine (heeds_ofExcept fun _ _ => trivial).bind fun _ _ => ?_
      refine (hsign _).bind fun issued hsigned => ⟨hquiet _ rfl, fun now hnow => ?_⟩
      refine (heeds_ofExcept fun decided hdecided =>
        hdecide hcheck _ decided issued now hcurrent hsigned hnow hdecided).bind
          fun decided hdecided => ?_
      exact (heeds_query (hdecided _) fun _ _ => trivial).bind fun _ _ =>
        (heeds_record (hrecord issued hsigned)).bind fun _ _ => hsigned

end Approval

section Confined

variable {told : (e : Effect) → e.Reply → Prop} {asked : Effect → Prop}
variable {kind : CertificateRequest → Prop}

theorem Confined.submitFrom (hconfined : Confined told asked kind) {submission : Submission}
    (hfile : ∀ (id : RequestId) now, told .now now →
      asked (.table .requests (.create id.text (submission.entry id now)))) (attempts : Nat) :
    (submitFrom submission attempts).Heeds told asked fun _ => True := by
  induction attempts with
  | zero => trivial
  | succ attempts ih =>
      refine ⟨hconfined.other rfl, fun now hnow => ⟨hconfined.other rfl, fun tail _ => ?_⟩⟩
      refine ⟨hfile _ now hnow, fun reply _ => ?_⟩
      unfold entered
      split
      · trivial
      · exact ih
      · trivial

/-- A request that is found is of the kind. -/
theorem Confined.find (hconfined : Confined told asked kind) (id : RequestId) :
    (find id).Heeds told asked fun current => kind current.value :=
  heeds_find (hconfined.other rfl) hconfined.shown

theorem Confined.now (hconfined : Confined told asked kind) {α : Type} {f : Instant → Procedure α}
    {yields : α → Prop}
    (hf : ∀ now : Instant, told .now now → (f now).Heeds told asked yields) :
    (Procedure.now.bind f).Heeds told asked yields :=
  ⟨hconfined.other rfl, hf⟩

/-- An approval that passes its check makes a request of the kind from one that it finds. -/
theorem Confined.approve (hconfined : Confined told asked kind) {sign : Signer} {maxDays : Nat}
    {approval : Approval} {signed : IssuedCertificate → Prop}
    (hsign : ∀ csrPem, (sign csrPem approval.days (.request approval.requestId)).Heeds told asked
      signed)
    (hdecide : approval.check maxDays = .ok () → ∀ r decided issued now, kind r → signed issued →
      told .now now → r.markApproved issued approval.approver approval.comment now = .ok decided →
        kind decided) :
    (approve sign maxDays approval).Heeds told asked fun _ => True := by
  refine (heeds_approve ?_ hconfined.shown hsign ?_ fun _ _ => hconfined.other rfl).mono
    fun _ _ => trivial
  · intro e hquiet
    exact hconfined.other (Effect.not_writesTo_of_not_asksWrite hquiet _)
  · intro hcheck r decided issued now hr hsigned hnow happroved revision
    exact hconfined.update (hdecide hcheck r decided issued now hr hsigned hnow happroved) _ _

/-- A rejection that passes its check makes a request of the kind from one that it finds. -/
theorem Confined.reject (hconfined : Confined told asked kind) {rejection : Rejection}
    (hdecide : rejection.check = .ok () → ∀ r decided now, kind r → told .now now →
      r.markRejected rejection.rejecter (Text.trim rejection.reason) now = .ok decided →
        kind decided) :
    (reject rejection).Heeds told asked fun _ => True := by
  unfold Ledger.reject
  split
  · trivial
  · next hcheck =>
      refine ⟨hconfined.other rfl, fun _ _ => Procedure.Heeds.ensuring ?_ (hconfined.other rfl)⟩
      refine (hconfined.find _).bind fun current hcurrent => hconfined.now fun now hnow => ?_
      refine (heeds_ofExcept fun decided hdecided =>
        hdecide hcheck _ decided now hcurrent hnow hdecided).bind fun decided hdecided => ?_
      exact (heeds_query (hconfined.update hdecided _ _) fun _ _ => trivial).bind fun _ _ => trivial

end Confined

/-- Whatever is asked of other tables may be asked. -/
theorem asked_of_not_writesTo {e : Effect} (he : e.writesTo .requests = false) : Asked e := by
  unfold Asked
  split
  · cases he
  · cases he
  · trivial

theorem confined_isReadable : Confined Told Asked CertificateRequest.IsReadable where
  shown htold := htold
  update hr _ _ := hr
  other := asked_of_not_writesTo

theorem submitFrom_heeds {submission : Submission} (hvalue : submission.agentInfo.IsValue)
    (hintegral : submission.agentInfo.IsIntegral) (attempts : Nat) :
    (submitFrom submission attempts).Heeds Told Asked fun _ => True :=
  confined_isReadable.submitFrom
    (fun _ _ hnow => submission.isStorable_entry hvalue hintegral _ hnow) attempts

theorem approve_heeds {sign : Signer} {maxDays : Nat} {approval : Approval}
    (hsign : ∀ csrPem, (sign csrPem approval.days (.request approval.requestId)).Heeds Told Asked
      fun issued => issued.expiresAt.IsValid) :
    (approve sign maxDays approval).Heeds Told Asked fun _ => True :=
  confined_isReadable.approve hsign fun _ _ _ _ _ hr hexpires hnow happroved =>
    hr.approved hexpires hnow happroved

theorem reject_heeds (rejection : Rejection) :
    (reject rejection).Heeds Told Asked fun _ => True :=
  confined_isReadable.reject fun _ _ _ _ hr hnow hrejected => hr.rejected hnow hrejected

end Ledger

end CertAuthority
