import CertAuthority.Proofs.Request.Stored
import CertAuthority.Proofs.Store.Text

/-!
# The table of requests as text

The table opens one level of the text, the entry another one and the record a third.  All requests
are read back if the agents' own values keep to the levels that are left; if one of them does not,
none of the requests is.
-/

namespace CertAuthority

open Json (Codec Reader)

namespace Ledger

/-- The levels that the table, its entry and the record leave to what an agent tells. -/
def agentLevels : Nat :=
  Json.textLevels - 3

/-- A table of requests as it was read from a file, or brought about by writes. -/
structure IsSound (entries : Entries CertificateRequest) : Prop where
  ascending : Json.Ascending entries
  sound : ∀ entry ∈ entries, entry.2.IsSound

def IsIntegral (entries : Entries CertificateRequest) : Prop :=
  ∀ entry ∈ entries, entry.2.value.IsIntegral

/-- That no agent's value is nested deeper than the levels that are left to it. -/
def IsShallow (entries : Entries CertificateRequest) : Prop :=
  ∀ entry ∈ entries, entry.2.value.agentInfo.depth ≤ agentLevels

instance (entries : Entries CertificateRequest) : Decidable (IsShallow entries) :=
  inferInstanceAs (Decidable (∀ entry ∈ entries, _))

section Tables

variable {entries : Entries CertificateRequest}

/-- A request is read back in a table if and only if the agent's value keeps to its levels. -/
theorem retold_request {r : CertificateRequest} (hr : r.IsSound) (hintegral : r.IsIntegral) :
    Snapshot.retold r = if r.agentInfo.depth ≤ agentLevels then some r else none := by
  rw [Snapshot.retold_eq,
    Json.Tree.retold_eq_ofJson (CertificateRequest.writes_toJson hr.agentInfo hintegral)]
  exact CertificateRequest.read_toJson hr 123

theorem isShallow_cons {key : String} {entry : Versioned CertificateRequest}
    {rest : Entries CertificateRequest} :
    IsShallow ((key, entry) :: rest) ↔
      entry.value.agentInfo.depth ≤ agentLevels ∧ IsShallow rest :=
  List.forall_mem_cons

theorem retoldEntries_eq (hsound : ∀ entry ∈ entries, entry.2.IsSound)
    (hintegral : IsIntegral entries) :
    Snapshot.retoldEntries entries = if IsShallow entries then some entries else none := by
  induction entries with
  | nil => rfl
  | cons head rest ih =>
      obtain ⟨key, entry⟩ := head
      obtain ⟨hhead, hrest⟩ := List.forall_mem_cons.mp hsound
      obtain ⟨hvalue, hvalues⟩ := List.forall_mem_cons.mp hintegral
      rw [Snapshot.retoldEntries_cons, retold_request hhead.value hvalue, ih hrest hvalues]
      by_cases hdepth : entry.value.agentInfo.depth ≤ agentLevels
      · rw [if_pos hdepth, Option.bind_some]
        by_cases hmore : IsShallow rest
        · rw [if_pos hmore, if_pos (isShallow_cons.mpr ⟨hdepth, hmore⟩)]
          rfl
        · rw [if_neg hmore, if_neg fun hall => hmore (isShallow_cons.mp hall).2]
          rfl
      · rw [if_neg hdepth, if_neg fun hall => hdepth (isShallow_cons.mp hall).1]
        rfl

/-- What is read as an entry of an object is sound. -/
theorem sound_of_entries {level : Nat} {t : Json.Tree} (hall : t.All JsonNumber.Fits)
    (hread : Reader.entries Codec.read (level + 3) t = some entries) :
    ∀ entry ∈ entries, entry.2.IsSound ∧ entry.2.value.agentInfo.depth ≤ level := by
  obtain ⟨inner, fields, heq, rfl, hmem⟩ := Json.exists_of_entries hread
  cases heq
  intro entry hentry
  obtain ⟨field, hfield, hvalue⟩ := hmem entry hentry
  obtain ⟨hsound, hdepth⟩ :=
    Versioned.isSound_of_read (Json.Tree.allFields_iff.mp hall field hfield) hvalue
  exact ⟨hsound, Nat.le_of_succ_le_succ (Nat.le_of_lt_succ hdepth)⟩

theorem IsSound.isOrderly (hsound : IsSound entries) : Snapshot.IsOrderly entries :=
  ⟨hsound.ascending, fun entry hentry => (hsound.sound entry hentry).revision⟩

/-- A table is read back if and only if no agent's value is nested too deep. -/
theorem decode_encode (hsound : IsSound entries) (hintegral : IsIntegral entries) :
    Snapshot.decode (Snapshot.encode entries) = if IsShallow entries then some entries else none := by
  rw [Snapshot.decode_encode hsound.isOrderly, retoldEntries_eq hsound.sound hintegral]

/-- A table that is read from a file is sound, and no agent's value in it is nested too deep. -/
theorem of_decode {content : Bytes} (hread : Snapshot.decode content = some entries) :
    IsSound entries ∧ IsShallow entries := by
  unfold Snapshot.decode at hread
  split at hread
  · cases hread
    exact ⟨⟨List.Pairwise.nil, List.forall_mem_nil _⟩, List.forall_mem_nil _⟩
  · obtain ⟨text, -, hread⟩ := Option.bind_eq_some_iff.mp hread
    obtain ⟨t, hparse, hread⟩ := Option.bind_eq_some_iff.mp hread
    obtain ⟨given, hgiven, rfl⟩ := Option.map_eq_some_iff.mp hread
    have hall : ∀ entry ∈ given, entry.2.IsSound ∧
        entry.2.value.agentInfo.depth ≤ agentLevels :=
      sound_of_entries (Json.Tree.all_fits_of_parse hparse) hgiven
    refine ⟨⟨Json.ascending_sortedFields given, fun entry hentry => ?_⟩, fun entry hentry => ?_⟩
    · exact (hall entry (Json.mem_of_mem_sortedFields hentry)).1
    · exact (hall entry (Json.mem_of_mem_sortedFields hentry)).2

end Tables

end Ledger

end CertAuthority
