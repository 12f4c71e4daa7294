import CertAuthority.Proofs.Disk.Stands

/-!
# Directories above a path

All paths to names below one directory share what is above them, and the directories there stay.
-/

/-! ## The directory that a path is in

All paths to names below one directory have the same path above them, and that does not end with a
slash, but for the root.
-/

namespace CertAuthority

namespace Path

theorem not_mem_of_mem_splitSlashes {s part : List Char} (hpart : part ∈ splitSlashes s) :
    '/' ∉ part := by
  induction s generalizing part with
  | nil =>
      cases List.mem_singleton.mp hpart
      exact List.not_mem_nil
  | cons c s ih =>
      obtain ⟨first, rest, hrest⟩ := List.exists_cons_of_ne_nil (splitSlashes_ne_nil s)
      rw [splitSlashes, hrest] at hpart
      rw [hrest] at ih
      split at hpart
      · rcases List.mem_cons.mp hpart with rfl | hlater
        · exact List.not_mem_nil
        · exact ih hlater
      · next hc =>
          rcases List.mem_cons.mp hpart with rfl | hlater
          · intro hmem
            rcases List.mem_cons.mp hmem with heq | hmem
            · exact hc heq.symm
            · exact ih List.mem_cons_self hmem
          · exact ih (List.mem_cons_of_mem _ hlater)

theorem mem_of_mem_trimVoid {ps : List (List Char)} {part : List Char}
    (hpart : part ∈ trimVoid ps) : part ∈ ps := by
  cases ps with
  | nil => exact hpart
  | cons first ps =>
      rcases List.mem_cons.mp hpart with rfl | hlater
      · exact List.mem_cons_self
      · have hkept := (List.dropWhile_suffix isVoid).subset (List.mem_reverse.mp hlater)
        exact List.mem_cons_of_mem _ (List.mem_reverse.mp hkept)

/-- Nothing void is left at the end but the first part. -/
theorem trimVoid_cases (ps : List (List Char)) :
    trimVoid ps = [] ∨ (∃ part, trimVoid ps = [part]) ∨
      ∃ init part, trimVoid ps = init ++ [part] ∧ isVoid part = false := by
  cases ps with
  | nil => exact .inl rfl
  | cons first ps =>
      rw [trimVoid]
      cases hkept : ps.reverse.dropWhile isVoid with
      | nil => exact .inr (.inl ⟨first, rfl⟩)
      | cons part rest =>
          refine .inr (.inr ⟨first :: rest.reverse, part, by simp, ?_⟩)
          have hhead := List.head?_dropWhile_not isVoid ps.reverse
          rw [hkept] at hhead
          simpa using hhead

theorem trimVoid_concat (ps : List (List Char)) {part : List Char} (hpart : isVoid part = false) :
    trimVoid (ps ++ [part]) = ps ++ [part] := by
  cases ps with
  | nil => rfl
  | cons first ps => simp [trimVoid, hpart]

theorem exists_joinSlashes_concat (ps : List (List Char)) (part : List Char) :
    ∃ s, joinSlashes (ps ++ [part]) = s ++ part := by
  induction ps with
  | nil => exact ⟨[], rfl⟩
  | cons first ps ih =>
      obtain ⟨s, hs⟩ := ih
      obtain ⟨second, rest, hrest⟩ := List.exists_cons_of_ne_nil (List.concat_ne_nil part ps)
      refine ⟨first ++ '/' :: s, ?_⟩
      rw [List.cons_append, hrest, joinSlashes, ← hrest, hs, List.append_assoc, List.cons_append]
      exact List.cons_ne_nil _ _

/-- A path that is above another one does not end with a slash, unless it is the root. -/
theorem getLast?_of_parent? {path parent : String} (hparent : parent? path = some parent) :
    parent = "/" ∨ parent.toList.getLast? ≠ some '/' := by
  have hend (ps : List (List Char)) {part : List Char} (hne : part ≠ []) (hslash : '/' ∉ part) :
      (String.ofList (joinSlashes (ps ++ [part]))).toList.getLast? ≠ some '/' := by
    obtain ⟨s, hs⟩ := exists_joinSlashes_concat ps part
    rw [hs, String.toList_ofList, List.getLast?_append, List.getLast?_eq_some_getLast hne]
    exact fun hlast => hslash (Option.some.inj hlast ▸ List.getLast_mem hne)
  have hslash {part : List Char} (hpart : part ∈ trimVoid (parts path).dropLast) : '/' ∉ part := by
    apply not_mem_of_mem_splitSlashes (s := path.toList)
    exact mem_of_mem_trimVoid (List.dropLast_subset _ (mem_of_mem_trimVoid hpart))
  unfold parent? at hparent
  split at hparent
  · cases hparent
  · cases hparent
  · cases hparent
    exact .inr (by decide)
  · split at hparent
    · cases hparent
      exact .inl rfl
    · next hkept =>
        cases hparent
        right
        rcases trimVoid_cases (parts path).dropLast with hnil | ⟨part, hone⟩ | ⟨init, part, hmany, hvoid⟩
        · rw [hnil]
          decide
        · have hne : part ≠ [] := by
            rintro rfl
            exact hkept hone
          rw [hone] at hslash ⊢
          exact hend [] hne (hslash List.mem_cons_self)
        · have hne : part ≠ [] := by
            rintro rfl
            cases hvoid
          rw [hmany] at hslash ⊢
          exact hend init hne (hslash (List.mem_append_right _ List.mem_cons_self))

/-- The parts of a path below a directory are those of the directory, and its name there. -/
theorem exists_parts_join (base : String) : ∃ above, ∀ name : String, '/' ∉ name.toList →
    isVoid name.toList = false → parts (join base name) = above ++ [name.toList] := by
  have hname {name : String} (hslash : '/' ∉ name.toList) : ¬ isAbsolute name = true := by
    intro habsolute
    exact hslash (List.mem_of_head? (by simpa [isAbsolute] using habsolute))
  by_cases hempty : base = ""
  · refine ⟨[], fun name hslash hvoid => ?_⟩
    rw [join, if_neg (hname hslash), if_pos hempty, parts, splitSlashes_of_not_mem hslash]
    rfl
  · by_cases hend : base.toList.getLast? = some '/'
    · obtain ⟨s, hs⟩ := List.getLast?_eq_some_iff.mp hend
      refine ⟨splitSlashes s, fun name hslash hvoid => ?_⟩
      rw [join, if_neg (hname hslash), if_neg hempty, if_pos hend, parts, String.toList_append, hs,
        List.append_assoc, List.singleton_append, splitSlashes_append,
        splitSlashes_of_not_mem hslash, trimVoid_concat _ hvoid]
    · refine ⟨splitSlashes base.toList, fun name hslash hvoid => ?_⟩
      rw [join, if_neg (hname hslash), if_neg hempty, if_neg hend, parts, String.toList_append,
        String.toList_append, List.append_assoc, show "/".toList = ['/'] from rfl,
        List.singleton_append, splitSlashes_append, splitSlashes_of_not_mem hslash,
        trimVoid_concat _ hvoid]

theorem parent?_of_parts {path other : String} {above : List (List Char)} {name last : List Char}
    (hpath : parts path = above ++ [name]) (hother : parts other = above ++ [last])
    (hname : name ≠ []) (hlast : last ≠ []) : parent? path = parent? other := by
  rw [parent?, parent?, hpath, hother]
  cases above with
  | nil =>
      obtain ⟨c, cs, rfl⟩ := List.exists_cons_of_ne_nil hname
      obtain ⟨e, es, rfl⟩ := List.exists_cons_of_ne_nil hlast
      rfl
  | cons first rest =>
      obtain ⟨second, more, hmore⟩ := List.exists_cons_of_ne_nil (List.concat_ne_nil name rest)
      obtain ⟨third, others, hothers⟩ := List.exists_cons_of_ne_nil (List.concat_ne_nil last rest)
      simp only [List.cons_append, hmore, hothers]
      rw [← hmore, ← hothers, ← List.cons_append, ← List.cons_append, List.dropLast_concat,
        List.dropLast_concat]

/-- All names below a directory have the same path above them. -/
theorem parent?_join (base : String) {name other : String} (hname : '/' ∉ name.toList)
    (hvoid : isVoid name.toList = false) (hother : '/' ∉ other.toList)
    (hothers : isVoid other.toList = false) :
    parent? (join base name) = parent? (join base other) := by
  obtain ⟨above, habove⟩ := exists_parts_join base
  refine parent?_of_parts (habove name hname hvoid) (habove other hother hothers) ?_ ?_
  · intro hnil
    rw [hnil] at hvoid
    cases hvoid
  · intro hnil
    rw [hnil] at hothers
    cases hothers

end Path

namespace Disk

theorem withoutEnd_eq {path : String} (hlast : path.toList.getLast? ≠ some '/') :
    withoutEnd path = path := by
  have hkept : path.toList.reverse.dropWhile (· = '/') = path.toList.reverse := by
    rw [List.getLast?_eq_head?_reverse] at hlast
    cases hreverse : path.toList.reverse with
    | nil => rfl
    | cons c cs =>
        rw [hreverse] at hlast
        rw [List.dropWhile_cons_of_neg]
        simpa using hlast
  rw [withoutEnd, hkept, List.reverse_reverse]
  split
  · rfl
  · exact String.ofList_toList

/-- A path that is above another one is not written with slashes at its end. -/
theorem withoutEnd_of_parent? {path parent : String} (hparent : Path.parent? path = some parent) :
    withoutEnd parent = parent := by
  rcases Path.getLast?_of_parent? hparent with rfl | hlast
  · rfl
  · exact withoutEnd_eq hlast

end Disk

end CertAuthority

/-! ## Directories that are there already

Once the directories of a path are made, they are there, and they still are after the disk has
grown.  Making directories that are there leaves a disk as it is.
-/

namespace CertAuthority.Disk

variable {d later : Disk} {path : String}

/-- What leads to a directory. -/
theorem isDirectory_iff :
    d.isDirectory path = true ↔
      ∃ place, d.resolve path true = .ok place ∧ d.node? place = some .directory := by
  unfold isDirectory stat
  constructor
  · intro hthere
    cases hresolve : d.resolve path true with
    | error e => simp [hresolve] at hthere
    | ok place =>
        refine ⟨place, rfl, ?_⟩
        rw [hresolve] at hthere
        cases hnode : d.node? place with
        | none => simp [hnode] at hthere
        | some node => cases node <;> simp_all
  · rintro ⟨place, hresolve, hnode⟩
    simp [hresolve, hnode]

/-- A directory that was made is there. -/
theorem isDirectory_of_makeDirectory (hend : withoutEnd path = path)
    (hmade : d.makeDirectory path = .ok later) : later.isDirectory path = true := by
  unfold makeDirectory at hmade
  rw [hend] at hmade
  split at hmade
  · cases hmade
  · next place hresolve =>
      split at hmade
      · cases hmade
      · next hnone =>
          cases hmade
          have hpath := isPath_of_resolve hresolve
          have hplace : place ≠ [] := ne_nil_of_node? (d := d) (by simp [hnone])
          have hnode : (d.put place .directory).node? place = some .directory := by
            rw [node?_put hplace, if_pos rfl]
          have hstands : (d.put place .directory).Stands path place := by
            refine ⟨?_, by simp [hnode]⟩
            rw [resolve_eq hpath] at hresolve ⊢
            exact ((Reaches.of_walk hresolve).put_directory hnone).walk
          exact isDirectory_iff.mpr ⟨place, hstands.resolve_follow true, hnode⟩

/-- Directories that were made are there. -/
theorem isDirectory_of_makeDirectories (hend : withoutEnd path = path)
    (hmade : d.makeDirectories path = .ok later) : path = "" ∨ later.isDirectory path = true := by
  rw [makeDirectories, makeDirectoriesFrom] at hmade
  split at hmade
  · next hempty => exact .inl hempty
  · right
    split at hmade
    · next hlast =>
        cases hmade
        exact isDirectory_of_makeDirectory hend hlast
    · split at hmade
      · split at hmade
        · next hthere =>
            cases hmade
            exact hthere
        · cases hmade
      · split at hmade
        · split at hmade
          · cases hmade
          · split at hmade
            · next hlast =>
                cases hmade
                exact isDirectory_of_makeDirectory hend hlast
            · split at hmade
              · next hthere =>
                  cases hmade
                  exact hthere
              · cases hmade
        · cases hmade

/-- Making directories that are there leaves the disk as it is. -/
theorem makeDirectories_of_isDirectory (hend : withoutEnd path = path)
    (hthere : path = "" ∨ d.isDirectory path = true) : d.makeDirectories path = .ok d := by
  rw [makeDirectories, makeDirectoriesFrom]
  by_cases hempty : path = ""
  · rw [if_pos hempty]
  · replace hthere := hthere.resolve_left hempty
    obtain ⟨place, hresolve, hnode⟩ := isDirectory_iff.mp hthere
    have hpath := isPath_of_resolve hresolve
    rw [resolve_eq hpath] at hresolve
    obtain ⟨left, hreaches, hleft⟩ := (Reaches.of_walk hresolve).staying
    obtain ⟨node, hfound⟩ := Option.ne_none_iff_exists'.mp (hleft (by simp [hnode]))
    have hexists : d.makeDirectory path = .error .exists := by
      rw [makeDirectory, hend, resolve_eq hpath, hreaches.walk]
      simp only [hfound]
    rw [if_neg hempty]
    simp only [hexists, ne_eq, reduceCtorEq, not_false_eq_true, if_true, hthere]

theorem Grows.isDirectory (hgrows : d.Grows later) (hthere : d.isDirectory path = true) :
    later.isDirectory path = true := by
  obtain ⟨place, hresolve, hnode⟩ := isDirectory_iff.mp hthere
  refine isDirectory_iff.mpr ⟨place, ?_, (hgrows.directory_iff place).mpr hnode⟩
  rcases hgrows.resolve path true with hsame | ⟨hmissing, -⟩
  · rw [hsame, hresolve]
  · rw [hmissing] at hresolve
    cases hresolve

end CertAuthority.Disk
