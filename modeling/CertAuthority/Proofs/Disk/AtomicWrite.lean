import CertAuthority.Disk.AtomicWrite
import CertAuthority.Proofs.Disk.Stands

/-!
# What a write in one step leaves

A write in one step either fails and leaves every place as it was, or puts the new content where the
path stands for, and leaves all other places.

That is so as long as the system does not refuse to give the new file its mode, to fill it or to
sync it: then that file stays behind, with what was written of it so far.
-/

namespace CertAuthority

namespace Disk

/-- That the same is at all places. -/
structure Same (d later : Disk) : Prop where
  here : later.here = d.here
  nodes : ∀ place, later.node? place = d.node? place

/-- That a file was written at a place, where there was a file or nothing. -/
structure Filed (d later : Disk) (place : Place) (content : Bytes) (mode : Nat) : Prop where
  here : later.here = d.here
  free : d.node? place = none ∨ ∃ content mode, d.node? place = some (.file content mode)
  nodes : ∀ other, later.node? other =
    if other = place then some (.file content mode) else d.node? other

variable {d later : Disk}

theorem Same.refl (d : Disk) : d.Same d :=
  ⟨rfl, fun _ => rfl⟩

theorem Same.grows (hsame : d.Same later) : d.Grows later :=
  ⟨hsame.here, fun place => .inl (hsame.nodes place)⟩

theorem Filed.grows {place : Place} {content : Bytes} {mode : Nat}
    (hfiled : d.Filed later place content mode) : d.Grows later := by
  refine ⟨hfiled.here, fun other => ?_⟩
  rw [hfiled.nodes]
  split
  · next heq =>
      subst heq
      exact .inr ⟨hfiled.free, _, _, rfl⟩
  · exact .inl rfl

/-- A file is moved to the place of the last name of a path in its directory. -/
theorem of_rename {source : Place} {path name : String} (hends : Path.Ends path name)
    (hrename : d.rename source path = .ok later) :
    ∃ directory node, d.walk true maxLinks (d.start path) (Path.way path) = .ok directory ∧
      d.node? directory = some .directory ∧ d.node? source = some node ∧
      d.node? (directory ++ [name]) ≠ some .directory ∧
      later = (d.erase source).put (directory ++ [name]) node := by
  obtain ⟨parts, hparts⟩ := hends.parts
  unfold rename at hrename
  rw [hparts] at hrename
  dsimp only at hrename
  rw [List.getLast?_concat, List.dropLast_concat] at hrename
  dsimp only at hrename
  rw [String.ofList_toList] at hrename
  split at hrename
  · cases hrename
  · next directory hway =>
      split at hrename
      · cases hrename
      · next hdirectory =>
          rw [ne_eq, Decidable.not_not] at hdirectory
          split at hrename
          · cases hrename
          · split at hrename
            · cases hrename
            · split at hrename
              · cases hrename
              · cases hrename
              · next node hsource hfree =>
                  cases hrename
                  refine ⟨directory, node, ?_, hdirectory, hsource, fun heq => hfree heq, rfl⟩
                  rw [Path.way, hparts, List.dropLast_concat]
                  exact hway

theorem of_createNew {path : String} {mode : Nat} {place : Place}
    (hmade : d.createNew path mode = .ok (place, later)) :
    d.resolve path false = .ok place ∧ d.node? place = none ∧
      later = d.put place (.file [] mode) := by
  unfold createNew at hmade
  split at hmade
  · cases hmade
  · next hresolve =>
      split at hmade
      · cases hmade
      · next hnew =>
          cases hmade
          exact ⟨hresolve, hnew, rfl⟩

/-- A file is made where nothing is. -/
theorem filed_of_free {place : Place} (hfree : d.node? place = none) (content : Bytes)
    (mode : Nat) : d.Filed (d.put place (.file content mode)) place content mode := by
  have hplace : place ≠ [] := ne_nil_of_node? (d := d) (by simp [hfree])
  exact ⟨rfl, .inl hfree, node?_put hplace d _⟩

/-- A file that was written is written anew. -/
theorem Filed.put {place : Place} {first : Bytes} {mode other : Nat}
    (hfiled : d.Filed later place first other) (hfree : d.node? place = none) (content : Bytes) :
    d.Filed (later.put place (.file content mode)) place content mode := by
  have hplace : place ≠ [] := ne_nil_of_node? (d := d) (by simp [hfree])
  refine ⟨hfiled.here, hfiled.free, fun found => ?_⟩
  rw [node?_put hplace, hfiled.nodes]
  split <;> rfl

/-- A file that was made where nothing was, and removed, has left nothing. -/
theorem Filed.same_erase {place : Place} {content : Bytes} {mode : Nat}
    (hfiled : d.Filed later place content mode) (hfree : d.node? place = none) :
    d.Same (later.erase place) := by
  have hplace : place ≠ [] := ne_nil_of_node? (d := d) (by simp [hfree])
  refine ⟨hfiled.here, fun other => ?_⟩
  rw [node?_erase hplace, hfiled.nodes]
  split
  · next heq => rw [heq, hfree]
  · rfl

/-- What is there while a new file is filled, seen from the disk before. -/
theorem filed_of_new {place : Place} (hnew : d.node? place = none) (content : Bytes) (mode : Nat) :
    d.Filed (((d.put place (.file [] mode)).put place (.file [] mode)).put place
      (.file content mode)) place content mode :=
  ((filed_of_free hnew [] mode).put hnew []).put hnew content

/-- A file that was made where nothing was, filled, and moved to where a path stands for. -/
theorem filed_of_rename {place : Place} {path name : String} {content : Bytes} {mode : Nat}
    (hpath : IsPath path) (hends : Path.Ends path name) (hname : IsName name)
    (hlink : d.isLink path = false) (hnew : d.node? place = none)
    (hrename : (((d.put place (.file [] mode)).put place (.file [] mode)).put place
      (.file content mode)).rename place path = .ok later) :
    ∃ target, d.Stands path target ∧ d.Filed later target content mode := by
  have hplace : place ≠ [] := ne_nil_of_node? (d := d) (by simp [hnew])
  have hmade := filed_of_new hnew content mode
  generalize ((d.put place (.file [] mode)).put place (.file [] mode)).put place
    (.file content mode) = made at hrename hmade
  have hgrows := hmade.grows
  obtain ⟨directory, node, hway, hdirectory, hsource, hfree, rfl⟩ := of_rename hends hrename
  have hstands : d.Stands path (directory ++ [name]) := by
    have hstart : made.start path = d.start path := by rw [start, start, hgrows.here]
    refine stands_of_way hpath hends hname ?_ ((hgrows.directory_iff _).mp hdirectory) hlink
    rw [hstart] at hway
    rcases hgrows.walk true maxLinks (d.start path) (Path.way path) with heq | ⟨-, hnot⟩
    · rwa [← heq]
    · rw [hnot] at hway
      cases hway
  refine ⟨_, hstands, hgrows.here, ?_, fun other => ?_⟩
  · cases htarget : d.node? (directory ++ [name]) with
    | none => exact .inl rfl
    | some found =>
        cases found with
        | file content mode => exact .inr ⟨_, _, rfl⟩
        | directory => exact absurd ((hgrows.directory_iff _).mpr htarget) hfree
        | link target => exact absurd htarget (hstands.plain target)
  · rw [hmade.nodes, if_pos rfl] at hsource
    cases hsource
    rw [node?_put (by simp), node?_erase hplace, hmade.nodes]
    split
    · rfl
    · split
      · next heq => rw [heq, hnew]
      · rfl

end Disk

namespace AtomicWrite

open Disk (IsPath IsName)

/-- What a step leaves of the new file when it is refused. -/
def Step.remnant (content : Bytes) : Step → Option Bytes
  | .setMode => some []
  | .write written => some (content.take written)
  | .sync => some content
  | _ => none

/-- How a write in one step ends, and what it leaves. -/
inductive Aftermath (refusal : Option Refusal) (nonce : Nat) (d : Disk) (path : String)
    (content : Bytes) (mode : Nat) : Except CaError Unit × Disk → Prop where
  /-- It has failed without a trace. -/
  | unchanged {message : String} {later : Disk} (hsame : d.Same later) :
    Aftermath refusal nonce d path content mode (.error (.storage message), later)
  /-- The content is where the path stands for, and nothing else has changed. -/
  | filed {later : Disk} (hunlinked : isKnownLink refusal d path = false)
    (hfiled : ∀ name, IsPath path → Path.Ends path name → IsName name → d.isLink path = false →
      ∃ place, d.Stands path place ∧ d.Filed later place content mode) :
    Aftermath refusal nonce d path content mode (.ok (), later)
  /-- What was written first was left under its own name. -/
  | abandoned {step : Step} {reason : IoError} {remnant : Bytes} {parent name : String}
    {place : Place} {later : Disk} (hrefusal : refusal = some ⟨step, reason⟩)
    (hremnant : step.remnant content = some remnant) (hparent : Path.parent? path = some parent)
    (hname : Path.fileName? path = some name)
    (hplace : d.resolve (Path.join parent (temporaryName name nonce)) false = .ok place)
    (hfree : d.node? place = none) (hleft : d.Filed later place remnant mode) :
    Aftermath refusal nonce d path content mode
      (.error (pathError (Path.join parent (temporaryName name nonce)) reason), later)

section Write

variable {refusal : Option Refusal} {d : Disk} {nonce : Nat} {path : String}
variable {content : Bytes} {mode : Nat} {place : Place}

theorem refusal_of_refusedAt {step : Step} {e : IoError}
    (hrefused : refusedAt refusal step = some e) : refusal = some ⟨step, e⟩ := by
  unfold refusedAt at hrefused
  split at hrefused
  · next r =>
      split at hrefused
      · next hstep =>
          cases hrefused
          rw [← hstep]
      · cases hrefused
  · cases hrefused

theorem refusal_of_refusedWrite {written : Nat} {e : IoError}
    (hrefused : refusedWrite refusal = some (written, e)) :
    refusal = some ⟨.write written, e⟩ := by
  unfold refusedWrite at hrefused
  split at hrefused
  · cases hrefused
    rfl
  · cases hrefused

/-- The finished file is moved, or removed. -/
theorem finish_cases (refusal : Option Refusal) (made : Disk) (place : Place)
    (temporary path : String) :
    (∃ message, finish refusal made place temporary path =
        (.error (.storage message), made.erase place)) ∨
      ∃ later, made.rename place path = .ok later ∧
        finish refusal made place temporary path = (.ok (), later) := by
  unfold finish
  cases refusedAt refusal .rename with
  | some e => exact .inl ⟨_, rfl⟩
  | none =>
      cases made.rename place path with
      | error e => exact .inl ⟨_, rfl⟩
      | ok later => exact .inr ⟨later, rfl, rfl⟩

/-- A new file is filled and moved, removed, or left. -/
theorem aftermath_fill {parent name : String} (hunlinked : isKnownLink refusal d path = false)
    (hparent : Path.parent? path = some parent) (hname : Path.fileName? path = some name)
    (hplace : d.resolve (Path.join parent (temporaryName name nonce)) false = .ok place)
    (hfree : d.node? place = none) :
    Aftermath refusal nonce d path content mode
      (fill refusal (d.put place (.file [] mode)) place
        (Path.join parent (temporaryName name nonce)) path content mode) := by
  -- Only the last step removes what was written when it is refused.
  unfold fill
  split
  · next e hrefused =>
      exact .abandoned (refusal_of_refusedAt hrefused) rfl hparent hname hplace hfree
        (Disk.filed_of_free hfree [] mode)
  · dsimp only
    split
    · next written e hrefused =>
        exact .abandoned (refusal_of_refusedWrite hrefused) rfl hparent hname hplace hfree
          (Disk.filed_of_new hfree _ mode)
    · split
      · next e hrefused =>
          exact .abandoned (refusal_of_refusedAt hrefused) rfl hparent hname hplace hfree
            (Disk.filed_of_new hfree content mode)
      · rcases finish_cases refusal (((d.put place (.file [] mode)).put place
            (.file [] mode)).put place (.file content mode)) place
          (Path.join parent (temporaryName name nonce)) path with
          ⟨message, hfailed⟩ | ⟨later, hrename, hdone⟩
        · rw [hfailed]
          exact .unchanged ((Disk.filed_of_new hfree content mode).same_erase hfree)
        · rw [hdone]
          exact .filed hunlinked fun name hpath hends hname hplain =>
            Disk.filed_of_rename hpath hends hname hplain hfree hrename

/-- Whatever is refused: a write in one step fails without a trace, or puts the content where the
path stands for, or leaves what it has written first. -/
theorem aftermath (refusal : Option Refusal) (nonce : Nat) (d : Disk) (path : String)
    (content : Bytes) (mode : Nat) :
    Aftermath refusal nonce d path content mode (write refusal nonce d path content mode) := by
  unfold write
  split
  · exact .unchanged (.refl d)
  · next hunlinked =>
      split
      · exact .unchanged (.refl d)
      · exact .unchanged (.refl d)
      · next parent name hparent hname =>
          dsimp only
          split
          · exact .unchanged (.refl d)
          · split
            · exact .unchanged (.refl d)
            · split
              · exact .unchanged (.refl d)
              · next place made hmade =>
                  obtain ⟨hplace, hfree, rfl⟩ := Disk.of_createNew hmade
                  exact aftermath_fill (Bool.eq_false_iff.mpr hunlinked) hparent hname hplace hfree

/-- A write in one step fails without a trace, or puts the content where the path stands for. -/
theorem write_cases (nonce : Nat) (d : Disk) (path : String) (content : Bytes) (mode : Nat) :
    (∃ message, (write none nonce d path content mode).1 = .error (.storage message) ∧
        d.Same (write none nonce d path content mode).2) ∨
      ((write none nonce d path content mode).1 = .ok () ∧
        ∀ name, IsPath path → Path.Ends path name → IsName name →
          ∃ place, d.Stands path place ∧
            d.Filed (write none nonce d path content mode).2 place content mode) := by
  have haftermath := aftermath none nonce d path content mode
  generalize write none nonce d path content mode = result at haftermath ⊢
  cases haftermath with
  | unchanged hsame => exact .inl ⟨_, rfl, hsame⟩
  | filed hunlinked hfiled =>
      have hplain : d.isLink path = false := by simpa [isKnownLink, refusedAt] using hunlinked
      exact .inr ⟨rfl, fun name hpath hends hname => hfiled name hpath hends hname hplain⟩
  | abandoned hrefusal => cases hrefusal

end Write

end AtomicWrite

end CertAuthority
