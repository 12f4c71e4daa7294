import CertAuthority.Proofs.Disk.Walk

/-!
# Where files stand

A path stands for a place if its directory is there and it is no link itself.  It stands for the
same place as long as the disk only grows, and what is read under it is what is at that place.
-/

namespace CertAuthority

namespace Path

theorem splitSlashes_ne_nil (s : List Char) : splitSlashes s ≠ [] := by
  cases s with
  | nil => simp [splitSlashes]
  | cons c rest =>
      unfold splitSlashes
      split
      · simp
      · split <;> simp

theorem splitSlashes_append (s t : List Char) :
    splitSlashes (s ++ '/' :: t) = splitSlashes s ++ splitSlashes t := by
  induction s with
  | nil => simp [splitSlashes]
  | cons c s ih =>
      rw [List.cons_append, splitSlashes, splitSlashes, ih]
      split
      · rfl
      · obtain ⟨part, parts, hparts⟩ := List.exists_cons_of_ne_nil (splitSlashes_ne_nil s)
        rw [hparts]
        rfl

theorem splitSlashes_of_not_mem {s : List Char} (hs : '/' ∉ s) : splitSlashes s = [s] := by
  induction s with
  | nil => rfl
  | cons c s ih =>
      have hc : c ≠ '/' := fun heq => hs (heq ▸ List.mem_cons_self)
      rw [splitSlashes, if_neg hc, ih fun hmem => hs (List.mem_cons_of_mem _ hmem)]

/-- That a name is the last part of a path. -/
structure Ends (path name : String) : Prop where
  getLast? : path.toList.getLast? ≠ some '/'
  parts : ∃ parts, (splitSlashes path.toList).filter (· ≠ []) = parts ++ [name.toList]

theorem ends_self {name : String} (hslash : '/' ∉ name.toList) (hname : name ≠ "") :
    Ends name name := by
  have hne : name.toList ≠ [] := by simpa using hname
  refine ⟨fun hlast => hslash (List.mem_of_getLast? hlast), [], ?_⟩
  rw [splitSlashes_of_not_mem hslash]
  simp [hne]

theorem ends_of_slash {path name : String} {s : List Char} (hslash : '/' ∉ name.toList)
    (hname : name ≠ "") (hpath : path.toList = s ++ '/' :: name.toList) : Ends path name := by
  have hne : name.toList ≠ [] := by simpa using hname
  obtain ⟨c, cs, hcs⟩ := List.exists_cons_of_ne_nil hne
  constructor
  · intro hlast
    rw [hpath, hcs, List.getLast?_append, List.getLast?_cons_cons, ← hcs,
      List.getLast?_eq_some_getLast hne] at hlast
    exact hslash (Option.some.inj hlast ▸ List.getLast_mem hne)
  · refine ⟨(splitSlashes s).filter (· ≠ []), ?_⟩
    rw [hpath, splitSlashes_append, splitSlashes_of_not_mem hslash, List.filter_append]
    simp [hne]

theorem Ends.ne_empty {path name : String} (hends : Ends path name) : path ≠ "" := by
  rintro rfl
  obtain ⟨parts, hparts⟩ := hends.parts
  have hnone : (splitSlashes "".toList).filter (· ≠ []) = [] := by decide
  rw [hnone] at hparts
  simp at hparts

/-- A path below a directory ends with its name there. -/
theorem ends_join (base : String) {name : String} (hslash : '/' ∉ name.toList) (hname : name ≠ "") :
    Ends (join base name) name := by
  have hrelative : ¬ isAbsolute name = true := by
    intro habsolute
    exact hslash (List.mem_of_head? (by simpa [isAbsolute] using habsolute))
  unfold join
  rw [if_neg hrelative]
  split
  · exact ends_self hslash hname
  · split
    · next hend =>
        obtain ⟨s, hs⟩ := List.getLast?_eq_some_iff.mp hend
        exact ends_of_slash hslash hname (s := s) (by simp [hs])
    · exact ends_of_slash hslash hname (s := base.toList) (by simp)

/-- The names on the way to the last one of a path. -/
def way (path : String) : List String :=
  ((splitSlashes path.toList).filter (· ≠ [])).dropLast.map String.ofList

theorem Ends.names {path name : String} (hends : Ends path name) :
    names path = way path ++ [name] := by
  obtain ⟨hlast, parts, hparts⟩ := hends
  have hslash : ¬ (path.toList.getLast? = some '/' ∧
      (splitSlashes path.toList).filter (· ≠ []) ≠ []) := fun h => hlast h.1
  rw [Path.names, way, if_neg hslash, hparts, List.dropLast_concat]
  simp

end Path

namespace Disk

/-- That a path is one that can be looked up at all. -/
structure IsPath (path : String) : Prop where
  text : path.toList.contains '\x00' = false
  ne_empty : path ≠ ""
  size : ¬ 4096 ≤ path.utf8ByteSize

instance (path : String) : Decidable (IsPath path) :=
  decidable_of_iff
    (path.toList.contains '\x00' = false ∧ path ≠ "" ∧ ¬ 4096 ≤ path.utf8ByteSize)
    ⟨fun ⟨htext, hne, hsize⟩ => ⟨htext, hne, hsize⟩,
      fun hpath => ⟨hpath.text, hpath.ne_empty, hpath.size⟩⟩

variable {d later : Disk} {path : String} {place : Place}

/-- The directory from which a path leads. -/
def start (d : Disk) (path : String) : Place :=
  if Path.isAbsolute path then [] else d.here

theorem resolve_eq (hpath : IsPath path) (d : Disk) (follow : Bool) :
    d.resolve path follow = d.walk follow maxLinks (d.start path) (Path.names path) := by
  rw [resolve, hpath.text, if_neg Bool.false_ne_true, if_neg hpath.ne_empty, if_neg hpath.size]
  rfl

theorem isPath_of_resolve {follow : Bool} (hresolve : d.resolve path follow = .ok place) :
    IsPath path := by
  unfold resolve at hresolve
  split at hresolve
  · cases hresolve
  · next htext =>
      split at hresolve
      · cases hresolve
      · next hne =>
          split at hresolve
          · cases hresolve
          · next hsize => exact ⟨by simpa using htext, hne, hsize⟩

/-- A path that is refused for no other reason than that nothing is there. -/
theorem isPath_of_notFound (follow : Bool) (hne : path ≠ "")
    (hrefused : ∀ e, d.resolve path follow = .error e → e = .notFound) : IsPath path := by
  unfold resolve at hrefused
  split at hrefused
  · cases hrefused _ rfl
  · next htext =>
      split at hrefused
      · cases hrefused _ rfl
      · next hsize => exact ⟨by simpa using htext, hne, hsize⟩

/-- That a path leads to a place, even if no link is followed there. -/
structure Stands (d : Disk) (path : String) (place : Place) : Prop where
  resolve : d.resolve path false = .ok place
  plain : ∀ target, d.node? place ≠ some (.link target)

namespace Stands

theorem reaches (hstands : d.Stands path place) :
    d.Reaches false maxLinks (d.start path) (Path.names path) place := by
  have hpath := isPath_of_resolve hstands.resolve
  have hresolve := hstands.resolve
  rw [resolve_eq hpath] at hresolve
  exact .of_walk hresolve

/-- A place for which a path stands is found by whoever follows links, too. -/
theorem resolve_follow (hstands : d.Stands path place) (follow : Bool) :
    d.resolve path follow = .ok place := by
  cases follow with
  | false => exact hstands.resolve
  | true =>
      rw [resolve_eq (isPath_of_resolve hstands.resolve)]
      exact (hstands.reaches.following hstands.plain).walk

/-- The place has the last name of the path. -/
theorem getLast?_eq (hstands : d.Stands path place) {name : String} (hname : IsName name)
    (hends : Path.Ends path name) : place.getLast? = some name := by
  refine (hstands.reaches.last_name hname.ne_point hname.ne_points ?_).2
  rw [hends.names, List.getLast?_concat]

theorem stat (hstands : d.Stands path place) (follow : Bool) :
    d.stat path follow = match d.node? place with
      | some node => .ok node
      | none => .error .notFound := by
  have hresolve := hstands.resolve_follow follow
  cases hnode : d.node? place <;> simp only [Disk.stat, hresolve, hnode]

theorem read (hstands : d.Stands path place) :
    d.read path = match d.node? place with
      | some (.file content mode) =>
        if isReadable mode then .ok content else .error .permissionDenied
      | some _ => .error .isDirectory
      | none => .error .notFound := by
  rw [Disk.read, hstands.stat]
  cases d.node? place with
  | none => rfl
  | some node => cases node <;> rfl

end Stands

/-- On a disk that has grown a path leads to the same place, or nowhere for another reason. -/
theorem Grows.resolve (hgrows : d.Grows later) (path : String) (follow : Bool) :
    later.resolve path follow = d.resolve path follow ∨
      d.resolve path follow = .error .notFound ∧
        later.resolve path follow = .error .notDirectory := by
  unfold Disk.resolve
  split
  · exact .inl rfl
  · split
    · exact .inl rfl
    · split
      · exact .inl rfl
      · rw [hgrows.here]
        exact hgrows.walk follow maxLinks _ _

/-- What a path stands for does not change while the disk grows. -/
theorem Grows.stands_iff (hgrows : d.Grows later) :
    later.Stands path place ↔ d.Stands path place := by
  have hresolve : later.resolve path false = .ok place ↔ d.resolve path false = .ok place := by
    have hsame : IsPath path → (later.resolve path false = .ok place ↔
        d.resolve path false = .ok place) := by
      intro hpath
      have hstart : later.start path = d.start path := by rw [start, start, hgrows.here]
      rw [resolve_eq hpath, resolve_eq hpath, hstart]
      rcases hgrows.walk false maxLinks (d.start path) (Path.names path) with heq | ⟨hold, hnew⟩
      · rw [heq]
      · rw [hold, hnew]
        exact ⟨nofun, nofun⟩
    exact ⟨fun h => (hsame (isPath_of_resolve h)).mp h, fun h => (hsame (isPath_of_resolve h)).mpr h⟩
  have hplain : (∀ target, later.node? place ≠ some (.link target)) ↔
      ∀ target, d.node? place ≠ some (.link target) :=
    forall_congr' fun target => not_congr (hgrows.link_iff place target)
  exact ⟨fun h => ⟨hresolve.mp h.resolve, hplain.mp h.plain⟩,
    fun h => ⟨hresolve.mpr h.resolve, hplain.mpr h.plain⟩⟩

/-- A plain name stands for its place in the directory from which paths lead, if no link is there. -/
theorem stands_of_name {name : String} (hpath : IsPath name) (hname : IsName name)
    (hslash : '/' ∉ name.toList)
    (hplain : ∀ target, d.node? (d.here ++ [name]) ≠ some (.link target)) :
    d.Stands name (d.here ++ [name]) := by
  have hway : Path.way name = [] := by
    have hne : name.toList ≠ [] := by simpa using hpath.ne_empty
    rw [Path.way, Path.splitSlashes_of_not_mem hslash]
    simp [hne]
  have hstart : d.start name = d.here := by
    have hrelative : ¬ Path.isAbsolute name = true := fun habsolute =>
      hslash (List.mem_of_head? (by simpa [Path.isAbsolute] using habsolute))
    rw [start, if_neg hrelative]
  refine ⟨?_, hplain⟩
  rw [resolve_eq hpath, (Path.ends_self hslash hpath.ne_empty).names, hway, hstart, List.nil_append,
    walk_cons hname]
  cases hnode : d.node? (d.here ++ [name]) with
  | none => rfl
  | some node =>
      cases node with
      | file content mode => rfl
      | directory => rw [walk]
      | link target => exact absurd hnode (hplain target)

/-- A path that leads somewhere stands for that place, unless it is a link. -/
theorem stands_of_resolve (hlink : d.isLink path = false)
    (hresolve : d.resolve path true = .ok place) : d.Stands path place := by
  have hpath := isPath_of_resolve hresolve
  rw [resolve_eq hpath] at hresolve
  obtain ⟨left, hleft, -⟩ := (Reaches.of_walk hresolve).staying
  have hstay : d.resolve path false = .ok left := by rw [resolve_eq hpath, hleft.walk]
  have hplain : ∀ target, d.node? left ≠ some (.link target) := by
    intro target hnode
    simp [isLink, stat, hstay, hnode] at hlink
  have hsame := (hleft.following hplain).walk
  rw [hresolve] at hsame
  cases hsame
  exact ⟨hstay, hplain⟩

/-- Nothing becomes a link, or ceases to be one, while the disk grows. -/
theorem Grows.isLink_eq (hgrows : d.Grows later) (path : String) :
    later.isLink path = d.isLink path := by
  rcases hgrows.resolve path false with hsame | ⟨hmissing, hnot⟩
  · rw [isLink, isLink, stat, stat, hsame]
    cases d.resolve path false with
    | error e => rfl
    | ok place =>
        rcases hgrows.nodes place with hnode | ⟨hfree, _, _, hfile⟩
        · simp only [hnode]
        · rcases hfree with hnone | ⟨_, _, hold⟩
          · simp only [hfile, hnone]
          · simp only [hfile, hold]
  · simp only [isLink, stat, hmissing, hnot]

/-- Where the directory of a path is there, the path stands for the place of its name in it,
unless a link is there. -/
theorem stands_of_way {name : String} {directory : Place} (hpath : IsPath path)
    (hends : Path.Ends path name) (hname : IsName name)
    (hway : d.walk true maxLinks (d.start path) (Path.way path) = .ok directory)
    (hdirectory : d.node? directory = some .directory) (hlink : d.isLink path = false) :
    d.Stands path (directory ++ [name]) := by
  have hresolve : d.resolve path false = .ok (directory ++ [name]) := by
    rw [resolve_eq hpath, hends.names]
    exact ((Reaches.of_walk hway).concat hdirectory hname (.inl rfl)).walk
  refine ⟨hresolve, fun target hnode => ?_⟩
  simp [isLink, stat, hresolve, hnode] at hlink

end Disk

end CertAuthority
