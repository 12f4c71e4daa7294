import CertAuthority.Disk.Basic

/-!
# Where paths lead

A disk grows if files are written on it and nothing else: directories and links stay, and what was a
file is one.  Paths lead to the same places on a disk that has grown.
-/

namespace CertAuthority.Disk

section Nodes

theorem node?_put {place : Place} (hplace : place ≠ []) (d : Disk) (node : Node) (other : Place) :
    (d.put place node).node? other = if other = place then some node else d.node? other := by
  by_cases hempty : other = []
  · subst hempty
    simp [node?, Ne.symm hplace]
  · by_cases hother : other = place
    · subst hother
      simp [node?, put, hempty]
    · have hfind : (d.put place node).entries.find? (·.1 = other) =
          d.entries.find? (·.1 = other) := by
        rw [put, List.find?_cons_of_neg (by simpa using Ne.symm hother), List.find?_filter]
        congr 1
        funext entry
        by_cases hentry : entry.1 = other <;> simp [hentry, hother]
      simp only [node?, hfind, hother, if_false]

theorem node?_erase {place : Place} (hplace : place ≠ []) (d : Disk) (other : Place) :
    (d.erase place).node? other = if other = place then none else d.node? other := by
  by_cases hempty : other = []
  · subst hempty
    simp [node?, Ne.symm hplace]
  · have hfind : (d.erase place).entries.find? (·.1 = other) =
        if other = place then none else d.entries.find? (·.1 = other) := by
      rw [erase, List.find?_filter]
      split
      · next heq =>
          subst heq
          simp
      · next hother =>
          congr 1
          funext entry
          by_cases hentry : entry.1 = other <;> simp [hentry, hother]
    simp only [node?, hempty, List.isEmpty_iff, if_false, hfind]
    split <;> rfl

/-- Nothing but the root is at the place of no names. -/
theorem ne_nil_of_node? {d : Disk} {place : Place} (hnode : d.node? place ≠ some .directory) :
    place ≠ [] := by
  rintro rfl
  exact hnode rfl

end Nodes

/-- That nothing was done to a disk but that files were written. -/
structure Grows (d later : Disk) : Prop where
  here : later.here = d.here
  nodes : ∀ place, later.node? place = d.node? place ∨
    (d.node? place = none ∨ ∃ content mode, d.node? place = some (.file content mode)) ∧
      ∃ content mode, later.node? place = some (.file content mode)

namespace Grows

theorem refl (d : Disk) : d.Grows d :=
  ⟨rfl, fun _ => .inl rfl⟩

theorem trans {d later last : Disk} (hlater : d.Grows later) (hlast : later.Grows last) :
    d.Grows last := by
  refine ⟨hlast.here.trans hlater.here, fun place => ?_⟩
  rcases hlast.nodes place with hsame | ⟨hold, hfile⟩
  · rw [hsame]
    exact hlater.nodes place
  · rcases hlater.nodes place with hsame | ⟨hfirst, -⟩
    · rw [hsame] at hold
      exact .inr ⟨hold, hfile⟩
    · exact .inr ⟨hfirst, hfile⟩

/-- A file that is written where there is a file or nothing. -/
theorem put {d : Disk} {place : Place} {content : Bytes} {mode : Nat}
    (hfree : d.node? place = none ∨ ∃ content mode, d.node? place = some (.file content mode)) :
    d.Grows (d.put place (.file content mode)) := by
  have hplace : place ≠ [] := ne_nil_of_node? (d := d) (by
    rcases hfree with hnone | ⟨_, _, hfile⟩
    · simp [hnone]
    · simp [hfile])
  refine ⟨rfl, fun other => ?_⟩
  rw [node?_put hplace]
  split
  · next heq =>
      subst heq
      exact .inr ⟨hfree, content, mode, rfl⟩
  · exact .inl rfl

variable {d later : Disk}

theorem directory_iff (hgrows : d.Grows later) (place : Place) :
    later.node? place = some .directory ↔ d.node? place = some .directory := by
  rcases hgrows.nodes place with hsame | ⟨hnone | ⟨_, _, hfile⟩, _, _, hlater⟩
  · rw [hsame]
  · simp [hnone, hlater]
  · simp [hfile, hlater]

theorem link_iff (hgrows : d.Grows later) (place : Place) (target : String) :
    later.node? place = some (.link target) ↔ d.node? place = some (.link target) := by
  rcases hgrows.nodes place with hsame | ⟨hnone | ⟨_, _, hfile⟩, _, _, hlater⟩
  · rw [hsame]
  · simp [hnone, hlater]
  · simp [hfile, hlater]

theorem file (hgrows : d.Grows later) {place : Place} {content : Bytes} {mode : Nat}
    (hfile : d.node? place = some (.file content mode)) :
    ∃ content mode, later.node? place = some (.file content mode) := by
  rcases hgrows.nodes place with hsame | ⟨-, hlater⟩
  · exact ⟨content, mode, hsame.trans hfile⟩
  · exact hlater

end Grows

section Walks

variable {d : Disk} {follow : Bool} {links : Nat} {place : Place}

/-- A name that leads on from a place, and not to that place or back. -/
structure IsName (name : String) : Prop where
  ne_point : name ≠ "."
  ne_points : name ≠ ".."
  size : ¬ maxName < name.utf8ByteSize

instance (name : String) : Decidable (IsName name) :=
  decidable_of_iff (name ≠ "." ∧ name ≠ ".." ∧ ¬ maxName < name.utf8ByteSize)
    ⟨fun ⟨hpoint, hpoints, hsize⟩ => ⟨hpoint, hpoints, hsize⟩,
      fun hname => ⟨hname.ne_point, hname.ne_points, hname.size⟩⟩

/-- What is at the next place decides where a walk goes on. -/
theorem walk_cons {name : String} (hname : IsName name) (rest : List String) :
    d.walk follow links place (name :: rest) =
      match d.node? (place ++ [name]) with
      | none => if rest.isEmpty then .ok (place ++ [name]) else .error .notFound
      | some .directory => d.walk follow links (place ++ [name]) rest
      | some (.file _ _) => if rest.isEmpty then .ok (place ++ [name]) else .error .notDirectory
      | some (.link target) =>
        if rest.isEmpty ∧ !follow then .ok (place ++ [name])
        else
          match links with
          | 0 => .error .tooManyLinks
          | links + 1 =>
            if target = "" then .error .notFound
            else
              d.walk follow links (if Path.isAbsolute target then [] else place)
                (Path.names target ++ rest) :=
  (Disk.walk.eq_def ..).trans <| (if_neg hname.ne_point).trans <|
    (if_neg hname.ne_points).trans <| if_neg hname.size

/-- On a disk that has grown a walk leads to the same place, or nowhere for another reason. -/
theorem Grows.walk {later : Disk} (hgrows : d.Grows later) (follow : Bool) (links : Nat)
    (place : Place) (names : List String) :
    later.walk follow links place names = d.walk follow links place names ∨
      d.walk follow links place names = .error .notFound ∧
        later.walk follow links place names = .error .notDirectory := by
  fun_induction Disk.walk d follow links place names with
  | case1 => exact .inl (by rw [Disk.walk])
  | case2 links place rest ih => rwa [Disk.walk, if_pos rfl]
  | case3 links place rest hne ih => rwa [Disk.walk, if_neg hne, if_pos rfl]
  | case4 links place name rest hpoint hpoints hlong =>
      exact .inl (by rw [Disk.walk, if_neg hpoint, if_neg hpoints, if_pos hlong])
  | case5 links place name rest hpoint hpoints hsize next hnode hlast =>
      rw [walk_cons ⟨hpoint, hpoints, hsize⟩]
      rcases hgrows.nodes next with hsame | ⟨-, _, _, hfile⟩
      · simp only [next, hsame, hnode, hlast]
        exact .inl rfl
      · simp only [next, hfile, hlast]
        exact .inl rfl
  | case6 links place name rest hpoint hpoints hsize next hnode hlast =>
      rw [walk_cons ⟨hpoint, hpoints, hsize⟩]
      rcases hgrows.nodes next with hsame | ⟨-, _, _, hfile⟩
      · simp only [next, hsame, hnode, hlast]
        exact .inl rfl
      · simp only [next, hfile, hlast]
        exact .inr ⟨trivial, rfl⟩
  | case7 links place name rest hpoint hpoints hsize next hnode ih =>
      rw [walk_cons ⟨hpoint, hpoints, hsize⟩]
      simp only [next, (hgrows.directory_iff _).mpr hnode]
      exact ih
  | case8 links place name rest hpoint hpoints hsize next content mode hnode hlast =>
      obtain ⟨_, _, hfile⟩ := hgrows.file hnode
      rw [walk_cons ⟨hpoint, hpoints, hsize⟩]
      simp only [next, hfile, hlast]
      exact .inl rfl
  | case9 links place name rest hpoint hpoints hsize next content mode hnode hlast =>
      obtain ⟨_, _, hfile⟩ := hgrows.file hnode
      rw [walk_cons ⟨hpoint, hpoints, hsize⟩]
      simp only [next, hfile, hlast]
      exact .inl rfl
  | case10 links place name rest hpoint hpoints hsize next target hnode hlast =>
      rw [walk_cons ⟨hpoint, hpoints, hsize⟩]
      simp only [next, (hgrows.link_iff _ _).mpr hnode, if_pos hlast]
      exact .inl trivial
  | case11 place name rest hpoint hpoints hsize next target hnode hlast =>
      rw [walk_cons ⟨hpoint, hpoints, hsize⟩]
      simp only [next, (hgrows.link_iff _ _).mpr hnode, if_neg hlast]
      exact .inl trivial
  | case12 place name rest hpoint hpoints hsize next hlast links hnode =>
      rw [walk_cons ⟨hpoint, hpoints, hsize⟩]
      simp only [next, (hgrows.link_iff _ _).mpr hnode, if_neg hlast]
      exact .inl rfl
  | case13 place name rest hpoint hpoints hsize next target hnode hlast links htarget ih =>
      rw [walk_cons ⟨hpoint, hpoints, hsize⟩]
      simp only [next, (hgrows.link_iff _ _).mpr hnode, if_neg hlast, if_neg htarget]
      exact ih

end Walks

/-- That a walk from a place comes to its end at a place, through so many links at most. -/
inductive Reaches (d : Disk) (follow : Bool) : Nat → Place → List String → Place → Prop where
  | here {links : Nat} {place : Place} : Reaches d follow links place [] place
  | point {links : Nat} {place last : Place} {rest : List String} :
    Reaches d follow links place rest last → Reaches d follow links place ("." :: rest) last
  | back {links : Nat} {place last : Place} {rest : List String} :
    Reaches d follow links place.dropLast rest last →
      Reaches d follow links place (".." :: rest) last
  /-- The last name may be that of a file, or of nothing. -/
  | leaf {links : Nat} {place : Place} {name : String} (hname : IsName name)
    (hnode : d.node? (place ++ [name]) = none ∨
      ∃ content mode, d.node? (place ++ [name]) = some (.file content mode)) :
    Reaches d follow links place [name] (place ++ [name])
  | into {links : Nat} {place last : Place} {name : String} {rest : List String}
    (hname : IsName name) (hnode : d.node? (place ++ [name]) = some .directory) :
    Reaches d follow links (place ++ [name]) rest last →
      Reaches d follow links place (name :: rest) last
  | stop {links : Nat} {place : Place} {name target : String} (hname : IsName name)
    (hnode : d.node? (place ++ [name]) = some (.link target)) (hfollow : follow = false) :
    Reaches d follow links place [name] (place ++ [name])
  | through {links : Nat} {place last : Place} {name target : String} {rest : List String}
    (hname : IsName name) (hnode : d.node? (place ++ [name]) = some (.link target))
    (hgoes : rest ≠ [] ∨ follow = true) (htarget : target ≠ "") :
    Reaches d follow links (if Path.isAbsolute target then [] else place)
      (Path.names target ++ rest) last →
        Reaches d follow (links + 1) place (name :: rest) last

namespace Reaches

variable {d : Disk} {follow : Bool} {links : Nat} {place last : Place} {names : List String}

theorem walk (hreaches : Reaches d follow links place names last) :
    d.walk follow links place names = .ok last := by
  induction hreaches with
  | here => rw [Disk.walk]
  | point _ ih => rwa [Disk.walk, if_pos rfl]
  | back _ ih => rwa [Disk.walk, if_neg (by decide), if_pos rfl]
  | leaf hname hnode =>
      rw [walk_cons hname]
      rcases hnode with hnone | ⟨_, _, hfile⟩
      · simp [hnone]
      · simp [hfile]
  | into hname hnode _ ih =>
      rw [walk_cons hname]
      simp only [hnode, ih]
  | stop hname hnode hfollow =>
      rw [walk_cons hname]
      simp [hnode, hfollow]
  | through hname hnode hgoes htarget _ ih =>
      rw [walk_cons hname]
      rcases hgoes with hrest | hfollow
      · simp [hnode, htarget, hrest, ih]
      · subst hfollow
        simpa [hnode, htarget] using ih

theorem of_walk (hwalk : d.walk follow links place names = .ok last) :
    Reaches d follow links place names last := by
  fun_induction Disk.walk d follow links place names with
  | case1 =>
      cases hwalk
      exact .here
  | case2 links place rest ih => exact .point (ih hwalk)
  | case3 links place rest hne ih => exact .back (ih hwalk)
  | case4 => cases hwalk
  | case5 links place name rest hpoint hpoints hsize next hnode hlast =>
      rw [← Except.ok.inj hwalk, List.isEmpty_iff.mp hlast]
      exact .leaf ⟨hpoint, hpoints, hsize⟩ (.inl hnode)
  | case6 => cases hwalk
  | case7 links place name rest hpoint hpoints hsize next hnode ih =>
      exact .into ⟨hpoint, hpoints, hsize⟩ hnode (ih hwalk)
  | case8 links place name rest hpoint hpoints hsize next content mode hnode hlast =>
      rw [← Except.ok.inj hwalk, List.isEmpty_iff.mp hlast]
      exact .leaf ⟨hpoint, hpoints, hsize⟩ (.inr ⟨_, _, hnode⟩)
  | case9 => cases hwalk
  | case10 links place name rest hpoint hpoints hsize next target hnode hlast =>
      rw [← Except.ok.inj hwalk, List.isEmpty_iff.mp hlast.1]
      exact .stop ⟨hpoint, hpoints, hsize⟩ hnode (by simpa using hlast.2)
  | case11 => cases hwalk
  | case12 => cases hwalk
  | case13 place name rest hpoint hpoints hsize next target hnode hlast links htarget ih =>
      refine .through ⟨hpoint, hpoints, hsize⟩ hnode ?_ htarget (ih hwalk)
      cases follow with
      | false => exact .inl fun hrest => hlast ⟨List.isEmpty_iff.mpr hrest, rfl⟩
      | true => exact .inr rfl

/-- Where a walk to a directory goes on by one name. -/
theorem concat (hreaches : Reaches d true links place names last)
    (hlast : d.node? last = some .directory) {name : String} (hname : IsName name)
    (hplain : follow = false ∨ ∀ target, d.node? (last ++ [name]) ≠ some (.link target)) :
    Reaches d follow links place (names ++ [name]) (last ++ [name]) := by
  induction hreaches with
  | here =>
      cases hnode : d.node? (_ ++ [name]) with
      | none => exact .leaf hname (.inl hnode)
      | some node =>
          cases node with
          | file content mode => exact .leaf hname (.inr ⟨_, _, hnode⟩)
          | directory => exact .into hname hnode .here
          | link target =>
              exact .stop hname hnode (hplain.resolve_right fun h => h target hnode)
  | point _ ih => exact .point (ih hlast hplain)
  | back _ ih => exact .back (ih hlast hplain)
  | leaf _ hnode =>
      rw [hlast] at hnode
      simp at hnode
  | into hfirst hnode _ ih => exact .into hfirst hnode (ih hlast hplain)
  | stop _ _ hfollow => cases hfollow
  | through hfirst hnode _ htarget _ ih =>
      rw [List.cons_append]
      refine .through hfirst hnode (.inl (by simp)) htarget ?_
      rw [← List.append_assoc]
      exact ih hlast hplain

/-- A walk that does not end at a link would not follow one at its end. -/
theorem following (hreaches : Reaches d false links place names last)
    (hplain : ∀ target, d.node? last ≠ some (.link target)) :
    Reaches d true links place names last := by
  induction hreaches with
  | here => exact .here
  | point _ ih => exact .point (ih hplain)
  | back _ ih => exact .back (ih hplain)
  | leaf hname hnode => exact .leaf hname hnode
  | into hname hnode _ ih => exact .into hname hnode (ih hplain)
  | stop _ hnode _ => exact absurd hnode (hplain _)
  | through hname hnode _ htarget _ ih => exact .through hname hnode (.inr rfl) htarget (ih hplain)

/-- Whoever does not follow a link at the end of a walk comes somewhere, too. -/
theorem staying (hreaches : Reaches d true links place names last) :
    ∃ left, Reaches d false links place names left ∧
      (d.node? last ≠ none → d.node? left ≠ none) := by
  induction hreaches with
  | here => exact ⟨_, .here, id⟩
  | point _ ih =>
      obtain ⟨left, hleft, hnode⟩ := ih
      exact ⟨left, .point hleft, hnode⟩
  | back _ ih =>
      obtain ⟨left, hleft, hnode⟩ := ih
      exact ⟨left, .back hleft, hnode⟩
  | leaf hname hnode => exact ⟨_, .leaf hname hnode, id⟩
  | into hname hnode _ ih =>
      obtain ⟨left, hleft, hfound⟩ := ih
      exact ⟨left, .into hname hnode hleft, hfound⟩
  | stop _ _ hfollow => cases hfollow
  | @through _ _ _ _ _ rest hname hnode _ htarget _ ih =>
      by_cases hrest : rest = []
      · subst hrest
        exact ⟨_, .stop hname hnode rfl, fun _ => by simp [hnode]⟩
      · obtain ⟨left, hleft, hfound⟩ := ih
        exact ⟨left, .through hname hnode (.inl hrest) htarget hleft, hfound⟩

/-- A walk that does not follow a link at its end comes to a place of the last name, and that is a
name if it does not lead back. -/
theorem last_name (hreaches : Reaches d false links place names last) {name : String}
    (hpoint : name ≠ ".") (hpoints : name ≠ "..") (hlast : names.getLast? = some name) :
    IsName name ∧ last.getLast? = some name := by
  induction hreaches with
  | here => cases hlast
  | @point _ _ _ rest hrest ih =>
      cases rest with
      | nil => exact absurd (Option.some.inj hlast) hpoint.symm
      | cons first rest => exact ih (by rwa [List.getLast?_cons_cons] at hlast)
  | @back _ _ _ rest _ ih =>
      cases rest with
      | nil => exact absurd (Option.some.inj hlast) hpoints.symm
      | cons first rest => exact ih (by rwa [List.getLast?_cons_cons] at hlast)
  | leaf hname _ =>
      cases hlast
      exact ⟨hname, List.getLast?_concat⟩
  | @into _ _ _ _ rest hname _ hrest ih =>
      cases rest with
      | nil =>
          cases hrest
          cases hlast
          exact ⟨hname, List.getLast?_concat⟩
      | cons first rest => exact ih (by rwa [List.getLast?_cons_cons] at hlast)
  | stop hname _ _ =>
      cases hlast
      exact ⟨hname, List.getLast?_concat⟩
  | @through _ _ _ _ _ rest _ _ hgoes _ _ ih =>
      have hrest : rest ≠ [] := hgoes.resolve_right (by decide)
      obtain ⟨first, rest, rfl⟩ := List.exists_cons_of_ne_nil hrest
      refine ih ?_
      rw [List.getLast?_append, List.getLast?_cons]
      rw [List.getLast?_cons_cons, List.getLast?_cons] at hlast
      rw [hlast]
      rfl

/-- A walk that comes to where nothing is comes to a directory that is made there. -/
theorem put_directory (hreaches : Reaches d follow links place names last)
    (hnone : d.node? last = none) :
    Reaches (d.put last .directory) follow links place names last := by
  have hlast : last ≠ [] := ne_nil_of_node? (d := d) (by simp [hnone])
  have hkept {other : Place} (hnode : d.node? other ≠ none) :
      (d.put last .directory).node? other = d.node? other := by
    rw [node?_put hlast, if_neg]
    rintro rfl
    exact hnode hnone
  induction hreaches with
  | here => exact .here
  | point _ ih => exact .point (ih hnone hlast hkept)
  | back _ ih => exact .back (ih hnone hlast hkept)
  | leaf hname _ =>
      refine .into hname ?_ .here
      rw [node?_put hlast, if_pos rfl]
  | into hname hnode _ ih =>
      refine .into hname ?_ (ih hnone hlast hkept)
      rw [hkept (by simp [hnode]), hnode]
  | stop _ hnode _ =>
      rw [hnone] at hnode
      cases hnode
  | through hname hnode hgoes htarget _ ih =>
      refine .through hname ?_ hgoes htarget (ih hnone hlast hkept)
      rw [hkept (by simp [hnode]), hnode]

end Reaches

end CertAuthority.Disk
