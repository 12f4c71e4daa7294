import CertAuthority.Proofs.Disk.Parent
import CertAuthority.Proofs.Store.File
import CertAuthority.Store.Table

/-!
# The tables of one directory

Each table of a directory has a file of its own name.  Whatever is asked of one table, the others
are read as before; and a table that could be opened can be opened again, if it can be read.
-/

namespace CertAuthority

namespace FileTable

open Json (Codec)

variable {α : Type} [Codec α] {t : FileTable} {name : String}

/-- A call to a table only lets the disk grow, and what it may change stands for its name. -/
theorem step_kept (hname : Disk.IsName name) (hends : Path.Ends t.path name) (nonce : Nat)
    (d : Disk) (call : TableCall α) :
    d.Grows (t.step nonce d call).2 ∧
      ∀ place, place.getLast? ≠ some name → d.Kept (t.step nonce d call).2 place := by
  have hmutate {β : Type} (change : Entries α → Except CaError (β × Entries α)) :
      d.Grows (t.mutate nonce d change).2 ∧
        ∀ place, place.getLast? ≠ some name → d.Kept (t.mutate nonce d change).2 place := by
    rcases mutate_cases t nonce d change with
      ⟨_, -, hrefused, -⟩ | ⟨_, _, _, written, -, -, hchanged⟩
    · exact ⟨hrefused.grows, fun place _ => hrefused.kept place⟩
    · refine ⟨hchanged.grows, fun place hplace => hchanged.kept place ?_⟩
      rintro rfl
      exact hplace (hchanged.stands.getLast?_eq hname hends)
  cases call with
  | get key => exact ⟨.refl d, fun place _ => .refl d place⟩
  | list => exact ⟨.refl d, fun place _ => .refl d place⟩
  | create key value => exact hmutate _
  | update key value revision => exact hmutate _
  | delete key revision => exact hmutate _

/-- That the directory of a table is there. -/
def HasDirectory (t : FileTable) (d : Disk) : Prop :=
  ∀ parent, Path.parent? t.path = some parent → parent = "" ∨ d.isDirectory parent = true

theorem HasDirectory.of_grows {d later : Disk} (hthere : t.HasDirectory d)
    (hgrows : d.Grows later) : t.HasDirectory later :=
  fun parent hparent => (hthere parent hparent).imp_right hgrows.isDirectory

/-- A table whose directory is there is opened if and only if it can be read. -/
theorem openAt_of_hasDirectory {d : Disk} (hthere : t.HasDirectory d) :
    openAt α t.path d = ((t.load (α := α) d).map fun _ => t, d) := by
  unfold openAt
  cases hparent : Path.parent? t.path with
  | none => cases hload : t.load (α := α) d <;> simp only [hload] <;> rfl
  | some parent =>
      have hmade : (d.makeDirectories parent).mapError (AtomicWrite.pathError parent) = .ok d := by
        rw [Disk.makeDirectories_of_isDirectory (Disk.withoutEnd_of_parent? hparent)
          (hthere parent hparent)]
        rfl
      cases hload : t.load (α := α) d <;> simp only [hmade, hload] <;> rfl

/-- A table that was opened can be read, and its directory is there. -/
theorem of_openAt {d later : Disk} {opened : FileTable}
    (hopened : openAt α t.path d = (.ok opened, later)) :
    t.HasDirectory later ∧ ∃ entries : Entries α, t.load later = .ok entries := by
  unfold openAt at hopened
  dsimp only at hopened
  split at hopened
  · cases hopened
  · next made hmade =>
      split at hopened
      · cases hopened
      · next entries hload =>
          cases hopened
          refine ⟨fun parent hparent => ?_, entries, hload⟩
          simp only [hparent] at hmade
          cases hdirectories : d.makeDirectories parent with
          | error e =>
              rw [hdirectories] at hmade
              cases hmade
          | ok found =>
              rw [hdirectories] at hmade
              cases hmade
              exact Disk.isDirectory_of_makeDirectories (Disk.withoutEnd_of_parent? hparent)
                hdirectories

end FileTable

namespace Tables

/-- The name of a table's file. -/
def fileName (name : TableName) : String :=
  name.text ++ ".json"

theorem isName_fileName (name : TableName) : Disk.IsName (fileName name) := by
  cases name <;> decide

theorem ends_fileOf (directory : String) (name : TableName) :
    Path.Ends (fileOf directory name).path (fileName name) := by
  refine Path.ends_join directory ?_ ?_ <;> cases name <;> decide

theorem fileName_injective {name other : TableName} (heq : fileName name = fileName other) :
    name = other := by
  revert heq
  cases name <;> cases other <;> decide

/-- Tables in files are asked in their files. -/
theorem step_inFiles (directory : String) (nonce : Nat) (d : Disk) (name : TableName)
    (call : TableCall name.Row) :
    (inFiles directory).step nonce d name call =
      (((fileOf directory name).step nonce d call).1, inFiles directory,
        ((fileOf directory name).step nonce d call).2) := by
  cases name <;> rfl

theorem parent?_fileOf (directory : String) (name other : TableName) :
    Path.parent? (fileOf directory name).path = Path.parent? (fileOf directory other).path := by
  refine Path.parent?_join directory ?_ ?_ ?_ ?_ <;> cases name <;> cases other <;> decide

/-- The tables of a directory are in it all together. -/
theorem hasDirectory_fileOf {directory : String} {name : TableName} {d : Disk}
    (hthere : (fileOf directory name).HasDirectory d) (other : TableName) :
    (fileOf directory other).HasDirectory d := by
  intro parent hparent
  rw [parent?_fileOf directory other name] at hparent
  exact hthere parent hparent

/-- Tables in files are opened in their files. -/
theorem openOn_inFiles (directory : String) (name : TableName) (d : Disk) :
    ((inFiles directory).table name).openOn d =
      ((FileTable.openAt name.Row (fileOf directory name).path d).1.map fun _ => (),
        (FileTable.openAt name.Row (fileOf directory name).path d).2) := by
  cases name <;> rfl

/-- Tables that were opened can be read, and their directory is there. -/
theorem of_openNames {directory : String} {names : List TableName} {d later : Disk}
    (hopened : (inFiles directory).openNames names d = (.ok (), later)) {first : TableName}
    (hthere : (fileOf directory first).HasDirectory d) :
    later = d ∧ ∀ name ∈ names, ∃ entries : Entries name.Row,
      (fileOf directory name).load d = .ok entries := by
  induction names with
  | nil =>
      cases hopened
      exact ⟨rfl, List.forall_mem_nil _⟩
  | cons name names ih =>
      have hname := hasDirectory_fileOf hthere name
      rw [openNames, openOn_inFiles, FileTable.openAt_of_hasDirectory hname] at hopened
      cases hload : (fileOf directory name).load (α := name.Row) d with
      | error e =>
          rw [hload] at hopened
          cases hopened
      | ok entries =>
          rw [hload] at hopened
          obtain ⟨hsame, hrest⟩ := ih hopened
          exact ⟨hsame, List.forall_mem_cons.mpr ⟨⟨entries, hload⟩, hrest⟩⟩

theorem of_openAll {directory : String} {d later : Disk}
    (hopened : (inFiles directory).openAll d = (.ok (), later)) :
    (∀ name, (fileOf directory name).HasDirectory later) ∧
      ∀ name : TableName, ∃ entries : Entries name.Row,
        (fileOf directory name).load later = .ok entries := by
  rw [openAll, TableName.all, openNames, openOn_inFiles] at hopened
  obtain ⟨made, hfirst⟩ : ∃ made, (FileTable.openAt (TableName.tokens).Row
      (fileOf directory .tokens).path d) = made := ⟨_, rfl⟩
  obtain ⟨result, made⟩ := made
  rw [hfirst] at hopened
  cases result with
  | error e => cases hopened
  | ok opened =>
      obtain ⟨hthere, htokens⟩ := FileTable.of_openAt hfirst
      obtain ⟨rfl, hrest⟩ := of_openNames hopened hthere
      refine ⟨hasDirectory_fileOf hthere, fun name => ?_⟩
      cases name with
      | tokens => exact htokens
      | requests => exact hrest .requests (by decide)
      | certificates => exact hrest .certificates (by decide)
      | revocations => exact hrest .revocations (by decide)

end Tables

end CertAuthority
