import CertAuthority.Proofs.Request.Filed

/-!
# Requests in the custody of a host

A host keeps the tables in the files of a directory.  As long as it is asked to enter nothing but
what can be written, and to update nothing but to what can be read again, the requests that it shows
can be read again, too; and they cease to be read only when a request is entered that is nested too
deep.
-/

namespace CertAuthority

/-- The request that was entered by an effect, with its key. -/
def Effect.filed? : (e : Effect) → e.Reply → Option (String × CertificateRequest)
  | .table .requests (.create key r), .ok _ => some (key, r)
  | _, _ => none

namespace Ledger

/-- What a host may be asked for. -/
def Asked : Effect → Prop
  | .table .requests (.create _ r) => r.IsStorable
  | .table .requests (.update _ r _) => r.IsReadable
  | _ => True

/-- What a host replies: the clock shows instants, and a request can be read again. -/
def Told : (e : Effect) → e.Reply → Prop
  | .now, t => t.IsValid
  | .table .requests (.get _), .ok (some entry) => entry.value.IsReadable
  | _, _ => True

/-- What an effect, which may have entered a request, makes of what is read of them. -/
inductive Sequel (directory : String) (d later : Disk) : Option (String × CertificateRequest) → Prop
  where
  | same (hsame : held directory later = held directory d) : Sequel directory d later none
  | changed {before after : Entries CertificateRequest} (hbefore : held directory d = .ok before)
    (hreadable : IsReadable after) (hafter : held directory later = .ok after) :
    Sequel directory d later none
  | filed {before : Entries CertificateRequest} {key : String} {r : CertificateRequest}
    (hbefore : held directory d = .ok before) (hnew : before.find? key = none)
    (hintegral : r.IsIntegral)
    (hafter : held directory later =
      if r.agentInfo.depth ≤ agentLevels then .ok (Snapshot.insert before key r)
      else .error (corrupt directory)) :
    Sequel directory d later (some (key, r))

section Disk

variable {directory : String} {d later : Disk} {filed : Option (String × CertificateRequest)}

/-- After every effect the requests stand in their file as before. -/
theorem Sequel.stands (hsequel : Sequel directory d later filed) (hstands : Stands directory d)
    (hgrows : d.Grows later) : Stands directory later := by
  cases hsequel with
  | same hsame => exact hstands.of_same hgrows hsame
  | changed hbefore hreadable hafter =>
      exact hstands.of_load hgrows hreadable.integral (.inl hafter)
  | @filed before key r hbefore hnew hintegral hafter =>
      have hinsert := isIntegral_insert (hstands.integral before hbefore) hintegral key
      refine hstands.of_load hgrows hinsert ?_
      rw [hafter]
      split
      · exact .inl rfl
      · exact .inr ⟨_, rfl⟩

/-- What a call to the requests makes of them. -/
theorem sequel_step (hstands : Stands directory d) (nonce : Nat)
    (call : TableCall CertificateRequest) (hasked : Asked (.table .requests call)) :
    Sequel directory d ((file directory).step nonce d call).2
      (Effect.filed? (.table .requests call) ((file directory).step nonce d call).1) := by
  cases call with
  | get key => exact .same rfl
  | list => exact .same rfl
  | create key r =>
      rcases create_cases hstands nonce key hasked with
        ⟨e, hfailed, hsame⟩ | ⟨hdone, before, hbefore, hnew, hafter⟩
      · rw [hfailed]
        exact .same hsame
      · rw [hdone]
        exact .filed hbefore hnew hasked.integral hafter
  | update key r revision =>
      rcases load_of_update hstands nonce key hasked revision with
        hsame | ⟨before, after, hbefore, hreadable, hafter⟩
      · exact .same hsame
      · exact .changed hbefore hreadable hafter
  | delete key revision =>
      rcases load_of_delete hstands nonce key revision with
        hsame | ⟨before, after, hbefore, hreadable, hafter⟩
      · exact .same hsame
      · exact .changed hbefore hreadable hafter

/-- A request that is got from its file can be read again. -/
theorem told_get (hstands : Stands directory d) (nonce : Nat) (key : String) :
    Told (.table .requests (.get key)) ((file directory).step nonce d (.get key)).1 := by
  change Told (.table .requests (.get key)) ((held directory d).map (·.find? key))
  cases hheld : held directory d with
  | error e => trivial
  | ok entries =>
      cases hfind : entries.find? key with
      | none => simp only [Except.map, hfind, Told]
      | some entry =>
          simp only [Except.map, hfind, Told]
          exact (hstands.readable hheld).of_find? hfind

end Disk

/-- That a host keeps the tables in the files of a directory. -/
structure Keeps (directory : String) (h : Host) : Prop where
  tables : h.tables = Tables.inFiles directory
  opened : (file directory).HasDirectory h.disk

/-- That a host has the requests in its custody, with a clock that shows instants. -/
structure Custody (directory : String) (h : Host) : Prop extends Keeps directory h where
  clock : ∀ count, (h.clock count).IsValid
  stands : Stands directory h.disk

section Host

variable {directory : String} {h : Host}

theorem Keeps.ask (hkeeps : Keeps directory h) (name : TableName) (call : TableCall name.Row) :
    h.ask name call =
      (((Tables.fileOf directory name).step h.nonce h.disk call).1,
        { h.advance with
          disk := ((Tables.fileOf directory name).step h.nonce h.disk call).2 }) := by
  rw [Host.ask, hkeeps.tables, Tables.step_inFiles, ← hkeeps.tables]
  rfl

/-- Whatever a host replies, its disk only grows. -/
theorem Keeps.grows (hkeeps : Keeps directory h) (e : Effect) : h.disk.Grows (h.reply e).2.disk := by
  cases e with
  | table name call =>
      rw [Host.reply, hkeeps.ask]
      exact (FileTable.step_kept (Tables.isName_fileName name) (Tables.ends_fileOf directory name)
        h.nonce h.disk call).1
  | now => exact .refl _
  | random count => exact .refl _
  | lock id => exact .refl _
  | unlock id => exact .refl _

theorem Keeps.reply (hkeeps : Keeps directory h) (e : Effect) : Keeps directory (h.reply e).2 := by
  refine ⟨?_, hkeeps.opened.of_grows (hkeeps.grows e)⟩
  cases e with
  | table name call =>
      rw [Host.reply, hkeeps.ask]
      exact hkeeps.tables
  | now => exact hkeeps.tables
  | random count => exact hkeeps.tables
  | lock id => exact hkeeps.tables
  | unlock id => exact hkeeps.tables

/-- A request is entered only where the path of the requests stands for a place. -/
theorem Keeps.stands_of_filed (hkeeps : Keeps directory h) {e : Effect} {key : String}
    {r : CertificateRequest} (hfiled : e.filed? (h.reply e).1 = some (key, r)) :
    ∃ place, h.disk.Stands (file directory).path place := by
  unfold Effect.filed? at hfiled
  split at hfiled
  · next found value revision heq =>
      rw [Host.reply, hkeeps.ask] at heq
      rcases FileTable.mutate_cases (file directory) h.nonce h.disk
        (FileTable.create found value) with ⟨e, hfailed, -⟩ | ⟨_, _, _, place, -, -, hchanged⟩
      · cases hfailed.symm.trans heq
      · exact ⟨place, hchanged.stands⟩
  · cases hfiled

theorem clock_reply (h : Host) (e : Effect) : (h.reply e).2.clock = h.clock := by
  cases e <;> rfl

/-- What a host makes of the requests with a reply. -/
theorem Custody.sequel (hcustody : Custody directory h) {e : Effect} (hasked : Asked e) :
    Sequel directory h.disk (h.reply e).2.disk (e.filed? (h.reply e).1) := by
  cases e with
  | table name call =>
      rw [Host.reply, hcustody.ask]
      by_cases hname : name = .requests
      · subst hname
        exact sequel_step hcustody.stands h.nonce call hasked
      · have hsame := load_step_of_ne hcustody.stands hname h.nonce call
        cases name with
        | requests => exact absurd rfl hname
        | tokens => exact .same hsame
        | certificates => exact .same hsame
        | revocations => exact .same hsame
  | now => exact .same rfl
  | random count => exact .same rfl
  | lock id => exact .same rfl
  | unlock id => exact .same rfl

theorem Custody.reply (hcustody : Custody directory h) {e : Effect} (hasked : Asked e) :
    Custody directory (h.reply e).2 where
  toKeeps := hcustody.toKeeps.reply e
  clock := by
    rw [clock_reply]
    exact hcustody.clock
  stands := (hcustody.sequel hasked).stands hcustody.stands (hcustody.grows e)

theorem Custody.told (hcustody : Custody directory h) (e : Effect) : Told e (h.reply e).1 := by
  cases e with
  | table name call =>
      rw [Host.reply, hcustody.ask]
      cases name with
      | requests =>
          cases call with
          | get key => exact told_get hcustody.stands h.nonce key
          | list => trivial
          | create key r => trivial
          | update key r revision => trivial
          | delete key revision => trivial
      | tokens => trivial
      | certificates => trivial
      | revocations => trivial
  | now => exact hcustody.clock _
  | random count => trivial
  | lock id => trivial
  | unlock id => trivial

end Host

end Ledger

end CertAuthority
