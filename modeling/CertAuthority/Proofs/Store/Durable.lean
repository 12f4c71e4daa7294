import CertAuthority.Proofs.Store.File
import CertAuthority.Proofs.Store.Records
import CertAuthority.Proofs.Store.Snapshot
import CertAuthority.Store.Table

/-!
# Tables lose nothing when they are stored

What is written of a table is read as that table: its keys, its revisions and every field of every
record, in the file as in the bytes.  Only a floating-point number that an agent tells is not known
to come back, so that nothing is said of the requests that hold one.
-/

namespace CertAuthority

open Json (Codec)

namespace Snapshot

variable {α : Type} [Codec α]

/-- What is certain of every value that is read from text is certain of the values in a table. -/
theorem value_of_decode {holds : α → Prop}
    (hvalue : ∀ level t v, Codec.read level t = some v → holds v) {content : Bytes}
    {entries : Entries α} (hread : decode content = some entries) :
    ∀ entry ∈ entries, holds entry.2.value := by
  unfold decode at hread
  split at hread
  · cases hread
    exact List.forall_mem_nil _
  · obtain ⟨text, -, hread⟩ := Option.bind_eq_some_iff.mp hread
    obtain ⟨t, -, hread⟩ := Option.bind_eq_some_iff.mp hread
    obtain ⟨given, hgiven, rfl⟩ := Option.map_eq_some_iff.mp hread
    obtain ⟨inner, fields, -, -, hmem⟩ := Json.exists_of_entries hgiven
    intro entry hentry
    obtain ⟨field, -, hfield⟩ := hmem entry (Json.mem_of_mem_sortedFields hentry)
    obtain ⟨f, -, hfield⟩ := Option.bind_eq_some_iff.mp hfield
    obtain ⟨value, hfound, hfield⟩ := Option.bind_eq_some_iff.mp hfield
    obtain ⟨revision, -, hfield⟩ := Option.bind_eq_some_iff.mp hfield
    rw [← Option.some.inj hfield]
    obtain ⟨part, -, hfound⟩ := Json.Fields.exists_of_required hfound
    exact hvalue _ _ _ hfound

/-- A value is told by its text if it is read from its own tree, and has no number that its text
does not tell. -/
theorem isFaithful_of_read {v : α} (hwrites : (Codec.write v).All Json.Writes fun _ => True)
    (hread : Codec.read valueLevels (Json.Tree.ofJson (Codec.write v)) = some v) :
    IsFaithful v := by
  rw [IsFaithful, retold_eq, Json.Tree.retold_eq_ofJson hwrites, hread]

end Snapshot

namespace TableName

/-- What there is of the values of a table: instants that there are and, of what an agent tells,
a value that programs hold, nested no deeper than the levels that are left to it. -/
def IsSound : (name : TableName) → name.Row → Prop
  | .tokens, token => token.IsSound
  | .requests, r => r.IsSound ∧ r.agentInfo.depth ≤ Ledger.agentLevels
  | .certificates, issued => issued.IsSound
  | .revocations, revocation => revocation.IsSound

/-- That a value holds no floating-point number. -/
def IsExact : (name : TableName) → name.Row → Prop
  | .tokens, _ => True
  | .requests, r => r.IsIntegral
  | .certificates, _ => True
  | .revocations, _ => True

variable {name : TableName}

theorem isFaithful {v : name.Row} (hsound : name.IsSound v) (hexact : name.IsExact v) :
    Snapshot.IsFaithful v := by
  cases name with
  | tokens =>
      exact Snapshot.isFaithful_of_read (BootstrapToken.writes_toJson v)
        (BootstrapToken.read_toJson hsound 123)
  | requests =>
      exact (Ledger.retold_request hsound.1 hexact).trans (if_pos hsound.2)
  | certificates =>
      exact Snapshot.isFaithful_of_read (IssuedCertificate.writes_toJson v)
        (IssuedCertificate.read_toJson hsound 123)
  | revocations =>
      exact Snapshot.isFaithful_of_read (Revocation.writes_toJson v)
        (Revocation.read_toJson hsound 124)

/-- Whatever is read of a table is sound. -/
theorem isSound_of_decode {content : Bytes} {entries : Entries name.Row}
    (hread : Snapshot.decode content = some entries) :
    ∀ entry ∈ entries, name.IsSound entry.2.value := by
  cases name with
  | tokens =>
      exact Snapshot.value_of_decode (fun _ _ _ => BootstrapToken.isSound_of_read) hread
  | requests =>
      obtain ⟨hsound, hshallow⟩ := Ledger.of_decode hread
      exact fun entry hentry => ⟨(hsound.sound entry hentry).value, hshallow entry hentry⟩
  | certificates =>
      exact Snapshot.value_of_decode (fun _ _ _ => IssuedCertificate.isSound_of_read) hread
  | revocations =>
      exact Snapshot.value_of_decode (fun _ _ _ => Revocation.isSound_of_read) hread

/-- Entries as a table holds them: their keys ascend, and revisions and values are sound. -/
structure IsTable (name : TableName) (entries : Entries name.Row) : Prop where
  orderly : Snapshot.IsOrderly entries
  sound : ∀ entry ∈ entries, name.IsSound entry.2.value

/-- That no value of a table holds a floating-point number. -/
def IsExactTable (name : TableName) (entries : Entries name.Row) : Prop :=
  ∀ entry ∈ entries, name.IsExact entry.2.value

variable {entries : Entries name.Row}

theorem decode_encode (htable : name.IsTable entries) (hexact : name.IsExactTable entries) :
    Snapshot.decode (Snapshot.encode entries) = some entries := by
  rw [Snapshot.decode_encode htable.orderly, Snapshot.retoldEntries_of_faithful]
  intro entry hentry
  exact isFaithful (htable.sound entry hentry) (hexact entry hentry)

theorem isTable_of_decode {content : Bytes} (hread : Snapshot.decode content = some entries) :
    name.IsTable entries :=
  ⟨Snapshot.isOrderly_of_decode hread, isSound_of_decode hread⟩

end TableName

/-- What is read of a file after a table was saved there. -/
theorem FileTable.load_of_save {α : Type} [Codec α] {t : FileTable} {nonce : Nat} {d : Disk}
    {before entries : Entries α} (hload : t.load d = .ok before)
    (hsave : (t.save nonce d entries).1 = .ok ())
    (hdecode : Snapshot.decode (Snapshot.encode entries) = some entries) :
    t.load (t.save nonce d entries).2 = .ok entries := by
  obtain ⟨_, _, _, haccepts⟩ := AtomicWrite.accepts_of_write hsave
  have hpath := isPath_of_load haccepts.ends.ne_empty hload
  obtain ⟨place, hstands, hfiled⟩ := AtomicWrite.filed_of_write hpath hsave
  have hlater := hfiled.grows.stands_iff.mpr hstands
  have hnode := hfiled.nodes place
  rw [if_pos rfl] at hnode
  rw [save, load_of_file hlater hnode rfl, hdecode]

namespace Snapshot

/-- What is certain of all tables that are written and read. -/
structure Durability : Prop where
  /-- A table without floating-point numbers is read from the bytes that are written of it, -/
  kept : ∀ (name : TableName) (entries : Entries name.Row), name.IsTable entries →
    name.IsExactTable entries → decode (encode entries) = some entries
  /-- and from its file, once it is saved there in the place of a table that could be read. -/
  saved : ∀ (name : TableName) (entries before : Entries name.Row) (t : FileTable) nonce d,
    name.IsTable entries → name.IsExactTable entries → t.load d = .ok before →
      (t.save nonce d entries).1 = .ok () → t.load (t.save nonce d entries).2 = .ok entries
  /-- Two such tables that differ are not written alike. -/
  distinct : ∀ (name : TableName) (first second : Entries name.Row), name.IsTable first →
    name.IsExactTable first → name.IsTable second → name.IsExactTable second →
      encode first = encode second → first = second
  /-- So a token from any source is not mixed up with one whose list of sources is empty. -/
  apart : ∀ (token : BootstrapToken) key revision, token.IsSound → revision < Nat.pow 2 64 →
    encode [(key, Versioned.mk { token with allowedSourceIps := none } revision)] ≠
      encode [(key, Versioned.mk { token with allowedSourceIps := some .empty } revision)]
  /-- Whatever bytes are read as a table, it is one that can be written and read again. -/
  read : ∀ (name : TableName) content (entries : Entries name.Row),
    decode content = some entries → name.IsTable entries

/-- The written form of a table loses nothing. -/
theorem durability : Durability where
  kept := fun _ _ => TableName.decode_encode
  saved := fun _ _ _ _ _ _ htable hexact hload hsave =>
    FileTable.load_of_save hload hsave (TableName.decode_encode htable hexact)
  distinct := by
    intro name first second hfirst hfirstExact hsecond hsecondExact hsame
    have hread := TableName.decode_encode hfirst hfirstExact
    rw [hsame, TableName.decode_encode hsecond hsecondExact] at hread
    exact (Option.some.inj hread).symm
  apart := by
    intro token key revision htoken hrevision hsame
    have htable (sources : Option AddressSet) : TableName.IsTable .tokens
        [(key, Versioned.mk { token with allowedSourceIps := sources } revision)] := by
      refine ⟨⟨List.pairwise_singleton _ _, ?_⟩, ?_⟩
      · exact List.forall_mem_singleton.mpr hrevision
      · exact List.forall_mem_singleton.mpr ⟨htoken.expiresAt, htoken.createdAt, htoken.usedAt⟩
    have hexact (entries : Entries BootstrapToken) : TableName.IsExactTable .tokens entries :=
      fun _ _ => trivial
    have habsent := TableName.decode_encode (htable none) (hexact _)
    have hempty := TableName.decode_encode (htable (some .empty)) (hexact _)
    rw [hsame, hempty] at habsent
    cases habsent
  read := fun _ _ _ => TableName.isTable_of_decode

end Snapshot

end CertAuthority
