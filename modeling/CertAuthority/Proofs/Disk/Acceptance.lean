import CertAuthority.Proofs.Disk.AtomicWrite
import CertAuthority.Proofs.Disk.Beside

/-!
# When a file is put in its place

A write in one step succeeds if and only if the directory of the path is there, no link and no
directory stands under its name, and nothing under the name that is written first.  After it has
succeeded all this is still so: the next write will succeed as well.
-/

namespace CertAuthority

namespace Disk

variable {d later : Disk} {source : Place} {path name : String}

/-- A file is moved only to a path that ends with a name. -/
theorem ends_of_rename (hrename : d.rename source path = .ok later) :
    ∃ name, name ≠ "." ∧ name ≠ ".." ∧ Path.Ends path name := by
  unfold rename at hrename
  dsimp only at hrename
  split at hrename
  · cases hrename
  · next last hlast =>
      split at hrename
      · cases hrename
      · split at hrename
        · cases hrename
        · split at hrename
          · cases hrename
          · next hback =>
              split at hrename
              · cases hrename
              · next hslash =>
                  obtain ⟨parts, hparts⟩ := List.getLast?_eq_some_iff.mp hlast
                  obtain ⟨hpoint, hpoints⟩ := not_or.mp hback
                  refine ⟨String.ofList last, fun heq => hpoint ?_, fun heq => hpoints ?_, hslash,
                    parts, by rw [hparts, String.toList_ofList]⟩
                  · rw [← String.toList_ofList (l := last), heq]
                    rfl
                  · rw [← String.toList_ofList (l := last), heq]
                    rfl

/-- A file is moved to a name in a directory that is there, unless a directory has that name. -/
theorem rename_eq {directory : Place} {node : Node} (hends : Path.Ends path name)
    (hname : IsName name)
    (hway : d.walk true maxLinks (d.start path) (Path.way path) = .ok directory)
    (hdirectory : d.node? directory = some .directory) (hsource : d.node? source = some node)
    (hfree : d.node? (directory ++ [name]) ≠ some .directory) :
    d.rename source path = .ok ((d.erase source).put (directory ++ [name]) node) := by
  obtain ⟨parts, hparts⟩ := hends.parts
  have hback : ¬ (name.toList = ['.'] ∨ name.toList = ['.', '.']) := by
    rintro (heq | heq)
    · exact hname.ne_point (String.toList_injective heq)
    · exact hname.ne_points (String.toList_injective heq)
  rw [Path.way, hparts, List.dropLast_concat] at hway
  change d.walk true maxLinks (if Path.isAbsolute path then [] else d.here) _ = _ at hway
  simp only [rename, hparts, List.getLast?_concat, List.dropLast_concat, hway, hdirectory,
    String.ofList_toList, ne_eq, not_true, if_false, if_neg hback, if_neg hends.getLast?, hsource]

/-- What is followed on a disk that has grown was there before. -/
theorem Grows.of_walk {follow : Bool} {links : Nat} {place last : Place} {names : List String}
    (hgrows : d.Grows later) (hwalk : later.walk follow links place names = .ok last) :
    d.walk follow links place names = .ok last := by
  rcases hgrows.walk follow links place names with hsame | ⟨-, hnot⟩
  · rwa [← hsame]
  · rw [hnot] at hwalk
    cases hwalk

theorem Grows.walk_ok {follow : Bool} {links : Nat} {place last : Place} {names : List String}
    (hgrows : d.Grows later) (hwalk : d.walk follow links place names = .ok last) :
    later.walk follow links place names = .ok last := by
  rcases hgrows.walk follow links place names with hsame | ⟨hmissing, -⟩
  · rwa [hsame]
  · rw [hmissing] at hwalk
    cases hwalk

theorem Grows.start (hgrows : d.Grows later) (path : String) : later.start path = d.start path := by
  rw [Disk.start, Disk.start, hgrows.here]

end Disk

namespace AtomicWrite

open Disk (IsPath IsName)

/-- What a write in one step asks of a disk. -/
structure Accepts (d : Disk) (path : String) (nonce : Nat) (name : String)
    (directory spare : Place) : Prop where
  isName : IsName name
  ends : Path.Ends path name
  way : d.walk true Disk.maxLinks (d.start path) (Path.way path) = .ok directory
  isDirectory : d.node? directory = some .directory
  plain : d.isLink path = false
  target : d.node? (directory ++ [name]) ≠ some .directory
  first : ∃ parent, Path.parent? path = some parent ∧
    d.resolve (Path.join parent (temporaryName name nonce)) false = .ok spare
  free : d.node? spare = none

variable {d : Disk} {path : String} {nonce : Nat} {content : Bytes} {mode : Nat}

/-- A file that was found under the name that is written first has a name that is not too long. -/
theorem isName_of_resolve {parent name : String} {spare : Place} (hslash : '/' ∉ name.toList)
    (hresolve : d.resolve (Path.join parent (temporaryName name nonce)) false = .ok spare) :
    IsName (temporaryName name nonce) ∧ spare.getLast? = some (temporaryName name nonce) := by
  have hpoint : ".".utf8ByteSize = 1 := rfl
  have hpoints : "..".utf8ByteSize = 2 := rfl
  have hends := Path.ends_join parent (not_mem_temporaryName hslash nonce)
    (temporaryName_ne (by simp))
  rw [Disk.resolve_eq (Disk.isPath_of_resolve hresolve)] at hresolve
  exact (Disk.Reaches.of_walk hresolve).last_name (temporaryName_ne (by omega))
    (temporaryName_ne (by omega)) (by rw [hends.names, List.getLast?_concat])

/-- A write that succeeded was accepted. -/
theorem accepts_of_write (hwrite : (write none nonce d path content mode).1 = .ok ()) :
    ∃ name directory spare, Accepts d path nonce name directory spare := by
  unfold write at hwrite
  split at hwrite
  · cases hwrite
  · next hlink =>
      split at hwrite
      · cases hwrite
      · cases hwrite
      · next parent file hparent hfile =>
          dsimp only at hwrite
          split at hwrite
          · cases hwrite
          · simp only [refusedAt] at hwrite
            split at hwrite
            · cases hwrite
            · next spare made hmade =>
                obtain ⟨hresolve, hnew, rfl⟩ := Disk.of_createNew hmade
                have hmade := Disk.filed_of_new hnew content mode
                simp only [fill, refusedAt, refusedWrite, finish] at hwrite
                split at hwrite
                · next later hrename =>
                    obtain ⟨name, hpoint, hpoints, hends⟩ := Disk.ends_of_rename hrename
                    obtain ⟨directory, -, hway, hdirectory, -, htarget, -⟩ :=
                      Disk.of_rename hends hrename
                    cases hfile.symm.trans (hends.fileName? hpoint hpoints)
                    have hsize := (isName_of_resolve hends.cases.1 hresolve).1.size
                    have hlonger := size_temporaryName file nonce
                    rw [hmade.grows.start] at hway
                    exact ⟨file, directory, spare, ⟨hpoint, hpoints, by omega⟩, hends,
                      hmade.grows.of_walk hway, (hmade.grows.directory_iff _).mp hdirectory,
                      by simpa [isKnownLink, refusedAt] using hlink,
                      fun heq => htarget ((hmade.grows.directory_iff _).mpr heq),
                      ⟨parent, hparent, hresolve⟩, hnew⟩
                · cases hwrite

/-- What a write left that succeeded. -/
theorem filed_of_write (hpath : IsPath path)
    (hwrite : (write none nonce d path content mode).1 = .ok ()) :
    ∃ place, d.Stands path place ∧
      d.Filed (write none nonce d path content mode).2 place content mode := by
  obtain ⟨name, _, _, haccepts⟩ := accepts_of_write hwrite
  rcases write_cases nonce d path content mode with ⟨e, hfailed, -⟩ | ⟨-, hfiled⟩
  · rw [hfailed] at hwrite
    cases hwrite
  · exact hfiled name hpath haccepts.ends haccepts.isName

/-- Where a write is accepted, it succeeds. -/
theorem Accepts.write {name : String} {directory spare : Place}
    (haccepts : Accepts d path nonce name directory spare) :
    (write none nonce d path content mode).1 = .ok () := by
  obtain ⟨parent, hparent, hfirst⟩ := haccepts.first
  have hfile := haccepts.ends.fileName? haccepts.isName.ne_point haccepts.isName.ne_points
  have hlink : d.isLink (Path.join parent (temporaryName name nonce)) = false := by
    simp [Disk.isLink, Disk.stat, hfirst, haccepts.free]
  have hmade := Disk.filed_of_new haccepts.free content mode
  have hcreate : d.createNew (Path.join parent (temporaryName name nonce)) mode =
      .ok (spare, d.put spare (.file [] mode)) := by
    simp [Disk.createNew, hfirst, haccepts.free]
  have hsource : (((d.put spare (.file [] mode)).put spare (.file [] mode)).put spare
      (.file content mode)).node? spare = some (.file content mode) := by
    rw [hmade.nodes, if_pos rfl]
  have hrename := Disk.rename_eq haccepts.ends haccepts.isName
    (hmade.grows.walk_ok (by rw [hmade.grows.start]; exact haccepts.way))
    ((hmade.grows.directory_iff _).mpr haccepts.isDirectory) hsource
    (fun heq => haccepts.target ((hmade.grows.directory_iff _).mp heq))
  simp only [AtomicWrite.write, isKnownLink, refusedAt, Option.isNone_none, Bool.true_and,
    haccepts.plain, Bool.false_eq_true, if_false, hparent, hfile, hlink, hcreate, fill,
    refusedWrite, finish, hrename]

/-- After a file was put in its place, a write is accepted as before. -/
theorem Accepts.of_filed {later : Disk} {name : String} {directory spare : Place} {written : Bytes}
    {own : Nat} (haccepts : Accepts d path nonce name directory spare) (hpath : IsPath path)
    (hfiled : d.Filed later (directory ++ [name]) written own) :
    Accepts later path nonce name directory spare := by
  have hgrows := hfiled.grows
  have hstands := Disk.stands_of_way hpath haccepts.ends haccepts.isName haccepts.way
    haccepts.isDirectory haccepts.plain
  obtain ⟨parent, hparent, hfirst⟩ := haccepts.first
  have hspare : spare ≠ directory ++ [name] := by
    rintro rfl
    have hlast := (isName_of_resolve haccepts.ends.cases.1 hfirst).2
    rw [List.getLast?_concat] at hlast
    exact temporaryName_ne (by omega) (Option.some.inj hlast).symm
  have hfree : later.node? spare = none := by rw [hfiled.nodes, if_neg hspare, haccepts.free]
  have htarget : later.node? (directory ++ [name]) = some (.file written own) := by
    rw [hfiled.nodes, if_pos rfl]
  refine ⟨haccepts.isName, haccepts.ends, ?_, (hgrows.directory_iff _).mpr haccepts.isDirectory, ?_,
    by simp [htarget], ⟨parent, hparent, ?_⟩, hfree⟩
  · rw [hgrows.start]
    exact hgrows.walk_ok haccepts.way
  · simp [Disk.isLink, (hgrows.stands_iff.mpr hstands).stat, htarget]
  · have hspares : d.Stands (Path.join parent (temporaryName name nonce)) spare :=
      ⟨hfirst, by simp [haccepts.free]⟩
    exact (hgrows.stands_iff.mpr hspares).resolve

end AtomicWrite

end CertAuthority
