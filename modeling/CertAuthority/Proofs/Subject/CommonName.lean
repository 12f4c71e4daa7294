import CertAuthority.Subject.Identity
import Mathlib.Data.List.TakeWhile

/-!
# The grammar of agents' names

A name is a host, an underscore, a user without underscores, and the ending.  Reading accepts these
texts and no others.  It cuts at the last underscore before the ending, and since a user has none,
that is the one that was written: neither underscores in the host nor a host that looks like a name
itself leave a choice.
-/

namespace CertAuthority

namespace CommonName

/-- That a text names a user of a host. -/
structure Names (s hostname username : String) : Prop where
  text : s = hostname ++ "_" ++ username ++ ending
  hostname_ne : hostname ≠ ""
  username_ne : username ≠ ""
  plain : '_' ∉ username.toList

section Characters

variable {s hostname username : List Char}

theorem reverse_renderChars (hostname username : List Char) :
    (renderChars hostname username).reverse =
      'J' :: '_' :: (username.reverse ++ '_' :: hostname.reverse) := by
  simp [renderChars]

/-- What is read from the end up to an underscore is the user, if the user has none. -/
theorem parseChars_renderChars (hhostname : hostname ≠ []) (husername : username ≠ [])
    (hplain : '_' ∉ username) :
    parseChars (renderChars hostname username) = .ok (hostname, username) := by
  have hnone : ∀ c ∈ username.reverse, decide (c ≠ '_') = true := by
    intro c hc
    rw [decide_eq_true_eq]
    rintro rfl
    exact hplain (List.mem_reverse.mp hc)
  have htaken : (username.reverse ++ '_' :: hostname.reverse).takeWhile (· ≠ '_') =
      username.reverse := by
    rw [List.takeWhile_append_of_pos hnone, List.takeWhile_cons_of_neg (by simp), List.append_nil]
  have hleft : (username.reverse ++ '_' :: hostname.reverse).dropWhile (· ≠ '_') =
      '_' :: hostname.reverse := by
    rw [List.dropWhile_append_of_pos hnone, List.dropWhile_cons_of_neg (by simp)]
  rw [parseChars, reverse_renderChars]
  simp only [htaken, hleft]
  rw [if_neg (by simp [hhostname, husername]), List.reverse_reverse, List.reverse_reverse]

/-- Whatever is accepted is put together again from what was read. -/
theorem of_parseChars (hparsed : parseChars s = .ok (hostname, username)) :
    s = renderChars hostname username ∧ hostname ≠ [] ∧ username ≠ [] ∧ '_' ∉ username := by
  unfold parseChars at hparsed
  split at hparsed
  · next body hbody =>
      dsimp only at hparsed
      split at hparsed
      · next c rest hrest =>
          split at hparsed
          · cases hparsed
          · next hparts =>
              cases hparsed
              have hseparator : c = '_' := by
                have hhead := List.head?_dropWhile_not (· ≠ '_') body
                rw [hrest] at hhead
                simpa using hhead
              have hwhole := List.takeWhile_append_dropWhile (p := (· ≠ '_')) (l := body)
              rw [hrest, hseparator] at hwhole
              rw [not_or, List.isEmpty_iff, List.isEmpty_iff] at hparts
              refine ⟨?_, by simpa using hparts.1, by simpa using hparts.2, fun hmem => ?_⟩
              · rw [← List.reverse_inj, hbody, reverse_renderChars, List.reverse_reverse,
                  List.reverse_reverse, hwhole]
              · simpa using List.mem_takeWhile_imp (List.mem_reverse.mp hmem)
      · cases hparsed
  · cases hparsed

end Characters

section Texts

variable {s hostname username : String}

theorem names_iff : Names s hostname username ↔
    s.toList = renderChars hostname.toList username.toList ∧ hostname.toList ≠ [] ∧
      username.toList ≠ [] ∧ '_' ∉ username.toList := by
  have htext : s = hostname ++ "_" ++ username ++ ending ↔
      s.toList = renderChars hostname.toList username.toList := by
    rw [← String.toList_inj]
    simp [renderChars, ending]
  have hempty (t : String) : t.toList ≠ [] ↔ t ≠ "" := by simp
  rw [← htext, hempty, hempty]
  exact ⟨fun hnames => ⟨hnames.1, hnames.2, hnames.3, hnames.4⟩,
    fun ⟨htext, hhost, huser, hplain⟩ => ⟨htext, hhost, huser, hplain⟩⟩

theorem parse_eq_ok_iff : parse s = .ok (hostname, username) ↔ Names s hostname username := by
  rw [names_iff]
  constructor
  · intro hparsed
    unfold parse at hparsed
    split at hparsed
    · next host user hchars =>
        cases hparsed
        rw [String.toList_ofList, String.toList_ofList]
        exact of_parseChars hchars
    · cases hparsed
  · rintro ⟨htext, hhostname, husername, hplain⟩
    rw [parse, htext, parseChars_renderChars hhostname husername hplain]
    simp only [String.ofList_toList]

theorem names_render_iff : Names (render hostname username) hostname username ↔
    hostname ≠ "" ∧ username ≠ "" ∧ '_' ∉ username.toList := by
  have htext : render hostname username = hostname ++ "_" ++ username ++ ending := by
    rw [← String.toList_inj]
    simp [render, renderChars, ending]
  exact ⟨fun hnames => ⟨hnames.2, hnames.3, hnames.4⟩,
    fun ⟨hhost, huser, hplain⟩ => ⟨htext, hhost, huser, hplain⟩⟩

/-- The text decides the host and the user. -/
theorem Names.unique {otherHostname otherUsername : String} (hnames : Names s hostname username)
    (hother : Names s otherHostname otherUsername) :
    hostname = otherHostname ∧ username = otherUsername := by
  have hsame := (parse_eq_ok_iff.mpr hnames).symm.trans (parse_eq_ok_iff.mpr hother)
  simpa using hsame

theorem Names.render_eq (hnames : Names s hostname username) : render hostname username = s := by
  rw [render, ← (names_iff.mp hnames).1, String.ofList_toList]

/-- A text that is no name is quoted in the error. -/
theorem parse_of_not_names (hnot : ∀ hostname username, ¬ Names s hostname username) :
    ∃ fault : Fault, parse s = .error (.malformedSubject (some s) fault.reason) := by
  cases hchars : parseChars s.toList with
  | ok parts =>
      have hparsed : parse s = .ok (String.ofList parts.1, String.ofList parts.2) := by
        rw [parse, hchars]
      exact (hnot _ _ (parse_eq_ok_iff.mp hparsed)).elim
  | error fault => exact ⟨fault, by rw [parse, hchars]⟩

end Texts

end CommonName

namespace SubjectIdentity

open CommonName

variable {commonName : String} {unit : Option String} {identity : SubjectIdentity}

/-- An identity holds the name that it was made from, and the host and user in it. -/
theorem ofParts_eq_ok_iff : ofParts commonName unit = .ok identity ↔
    identity.commonName = commonName ∧ identity.organizationalUnit = unit ∧
      Names commonName identity.hostname identity.username := by
  rw [← parse_eq_ok_iff, ofParts]
  cases parse commonName with
  | error e => simp
  | ok parts =>
      obtain ⟨hostname, username⟩ := parts
      obtain ⟨name, found, host, user⟩ := identity
      simp only [Except.ok.injEq, mk.injEq, Prod.mk.injEq]
      rw [eq_comm (a := name), eq_comm (a := found)]

end SubjectIdentity

namespace CommonName

/-- What is certain of the names of agents. -/
structure Grammar : Prop where
  /-- Those texts are accepted that name a user of a host, and read as what they name. -/
  accepted : ∀ s hostname username,
    parse s = .ok (hostname, username) ↔ Names s hostname username
  /-- All others are refused, with an error that quotes them. -/
  refused : ∀ s, (∀ hostname username, ¬ Names s hostname username) →
    ∃ fault : Fault, parse s = .error (.malformedSubject (some s) fault.reason)
  /-- No text names two. -/
  unambiguous : ∀ s hostname username otherHostname otherUsername, Names s hostname username →
    Names s otherHostname otherUsername → hostname = otherHostname ∧ username = otherUsername
  /-- What was read is written as it was. -/
  rewritten : ∀ s hostname username, parse s = .ok (hostname, username) →
    render hostname username = s
  /-- What was written is read as it was, exactly if neither part is empty and the user has no
  underscore. -/
  reread : ∀ hostname username, parse (render hostname username) = .ok (hostname, username) ↔
    hostname ≠ "" ∧ username ≠ "" ∧ '_' ∉ username.toList
  /-- Identities are made of names only, and keep them. -/
  identified : ∀ commonName unit, (∃ identity, SubjectIdentity.ofParts commonName unit =
    .ok identity) ↔ ∃ hostname username, Names commonName hostname username
  canonical : ∀ commonName unit identity,
    SubjectIdentity.ofParts commonName unit = .ok identity →
      identity.commonName = commonName ∧ identity.canonical = identity.commonName

/-- Names are read and written without loss, and in one way only. -/
theorem grammar : Grammar where
  accepted _ _ _ := parse_eq_ok_iff
  refused _ hnot := parse_of_not_names hnot
  unambiguous _ _ _ _ _ hnames hother := hnames.unique hother
  rewritten _ _ _ hparsed := (parse_eq_ok_iff.mp hparsed).render_eq
  reread _ _ := parse_eq_ok_iff.trans names_render_iff
  identified := by
    intro commonName unit
    constructor
    · rintro ⟨identity, hidentity⟩
      exact ⟨_, _, (SubjectIdentity.ofParts_eq_ok_iff.mp hidentity).2.2⟩
    · rintro ⟨hostname, username, hnames⟩
      exact ⟨⟨commonName, unit, hostname, username⟩,
        SubjectIdentity.ofParts_eq_ok_iff.mpr ⟨rfl, rfl, hnames⟩⟩
  canonical := by
    intro commonName unit identity hidentity
    obtain ⟨hname, -, hnames⟩ := SubjectIdentity.ofParts_eq_ok_iff.mp hidentity
    exact ⟨hname, by rw [hname]; exact hnames.render_eq⟩

/-- A host may have underscores, and may even look like a name itself. -/
example : parseChars (renderChars "db_01_J".toList "J".toList) =
    .ok ("db_01_J".toList, "J".toList) := by
  decide

end CommonName

end CertAuthority
