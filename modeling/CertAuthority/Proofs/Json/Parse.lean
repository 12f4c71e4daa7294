import CertAuthority.Proofs.Json.Text

/-!
# What a text is parsed to

Whatever the text, the integers in its tree have 64 bits.  So what is read from it is a value as
programs hold them, nested no deeper than texts may be.
-/

namespace CertAuthority

namespace JsonNumber

theorem takeFitting_le (acc count : Nat) (ds : List Char) (hacc : acc ≤ maxUnsigned) :
    (takeFitting acc count ds).1 ≤ maxUnsigned := by
  induction ds generalizing acc count with
  | nil => exact hacc
  | cons d ds ih =>
      unfold takeFitting
      dsimp only
      split
      · next hfits => exact ih _ _ hfits
      · exact hacc

theorem fits_ofParts {negative : Bool} {significand : Nat} {e : Int} {n : JsonNumber}
    (hn : ofParts negative significand e = some n) : n.Fits := by
  obtain ⟨f, -, rfl⟩ := Option.map_eq_some_iff.mp hn
  trivial

theorem fits_ofLiteral {l : Literal} {n : JsonNumber} (hn : ofLiteral l = some n) : n.Fits := by
  have hmax : (takeFitting 0 0 l.whole).1 < 2 ^ 64 :=
    Nat.lt_of_le_of_lt (takeFitting_le 0 0 l.whole (Nat.zero_le _)) (by decide)
  unfold ofLiteral at hn
  dsimp only at hn
  split at hn
  · split at hn
    · cases hn
      exact ⟨by omega, by exact_mod_cast hmax⟩
    · split at hn
      · cases hn
        trivial
      · next hsome =>
          cases hn
          rw [show Nat.pow 2 63 = 2 ^ 63 from rfl] at hsome
          exact ⟨by omega, by omega⟩
  · split at hn
    · exact fits_ofParts hn
    · split at hn
      · exact fits_ofParts hn
      · split at hn
        · cases hn
        · cases hn
          trivial

end JsonNumber

namespace Json

namespace Tree

/-- All numbers in a tree that was parsed fit. -/
theorem all_fits_of_value (fuel : Nat) :
    (∀ s t rest, value fuel s = some (t, rest) → t.All JsonNumber.Fits) ∧
      (∀ s ts rest, items fuel s = some (ts, rest) → AllItems JsonNumber.Fits ts) ∧
        ∀ s fs rest, fields fuel s = some (fs, rest) → AllFields JsonNumber.Fits fs := by
  induction fuel with
  | zero => exact ⟨nofun, nofun, nofun⟩
  | succ fuel ih =>
      obtain ⟨hvalue, hitems, hfields⟩ := ih
      refine ⟨fun s t rest hread => ?_, fun s ts rest hread => ?_, fun s fs rest hread => ?_⟩
      · unfold value at hread
        split at hread
        · cases hread; trivial
        · cases hread; trivial
        · cases hread; trivial
        · obtain ⟨found, -, hfound⟩ := Option.map_eq_some_iff.mp hread
          cases hfound
          trivial
        · split at hread
          · cases hread; trivial
          · obtain ⟨found, hfirst, hfound⟩ := Option.map_eq_some_iff.mp hread
            cases hfound
            exact hitems _ _ _ hfirst
        · split at hread
          · cases hread; trivial
          · obtain ⟨found, hfirst, hfound⟩ := Option.map_eq_some_iff.mp hread
            cases hfound
            exact hfields _ _ _ hfirst
        · obtain ⟨found, -, hfound⟩ := Option.map_eq_some_iff.mp hread
          cases hfound
          cases hn : JsonNumber.ofLiteral found.1 with
          | none => trivial
          | some n => exact JsonNumber.fits_ofLiteral hn
      · unfold items at hread
        split at hread
        · cases hread
        · next hfirst =>
            split at hread
            · cases hread
              exact ⟨hvalue _ _ _ hfirst, trivial⟩
            · obtain ⟨found, hrest, hfound⟩ := Option.map_eq_some_iff.mp hread
              cases hfound
              exact ⟨hvalue _ _ _ hfirst, hitems _ _ _ hrest⟩
            · cases hread
      · unfold fields at hread
        split at hread
        · split at hread
          · cases hread
          · split at hread
            · split at hread
              · cases hread
              · next hfirst =>
                  split at hread
                  · cases hread
                    exact ⟨hvalue _ _ _ hfirst, trivial⟩
                  · obtain ⟨found, hrest, hfound⟩ := Option.map_eq_some_iff.mp hread
                    cases hfound
                    exact ⟨hvalue _ _ _ hfirst, hfields _ _ _ hrest⟩
                  · cases hread
            · cases hread
        · cases hread

theorem all_fits_of_parse {text : String} {t : Tree} (hparse : parse text = some t) :
    t.All JsonNumber.Fits := by
  unfold parse at hparse
  dsimp only at hparse
  split at hparse
  · next found rest hread =>
      split at hparse
      · cases hparse
        exact (all_fits_of_value _).1 _ _ _ hread
      · cases hparse
  · cases hparse

end Tree

/-- A value that is read from a text is one as programs hold them, nested no deeper than texts may
be. -/
theorem isValue_of_readText {text : String} {v : Json} (hread : readText Reader.json text = some v) :
    v.IsValue ∧ v.depth ≤ textLevels := by
  obtain ⟨t, hparse, ht⟩ := Option.bind_eq_some_iff.mp hread
  exact Tree.yields_of_toJson? t (Tree.all_fits_of_parse hparse) ht

theorem IsValue.writes {v : Json} (hv : v.IsValue) (hintegral : v.IsIntegral) :
    v.All Writes AscendingKeys :=
  All.and hv hintegral

/-- A value is read back from its text if and only if it is not nested deeper than texts may be. -/
theorem readText_toPrettyText {v : Json} (hv : v.IsValue) (hintegral : v.IsIntegral) :
    readText Reader.json (toPrettyText v) = if v.depth ≤ textLevels then some v else none := by
  have hwrites := hv.writes hintegral
  rw [readText, Tree.parse_toPrettyText, Tree.retold_eq_ofJson hwrites, Option.bind_some]
  exact Tree.toJson?_ofJson textLevels v hwrites

end Json

end CertAuthority
