import CertAuthority.Proofs.Store.Enumeration
import CertAuthority.Token.Export

/-!
# The list of tokens

Tokens are listed by the time of their creation alone.  Those that were created at one time are
left in the order in which the table enumerates them: in memory in any order, in a file by
identifier.  So the list does not depend on the table if and only if no two tokens in it were
created at one time.
-/

namespace CertAuthority.Tokens

open Sorting (IsComparison Separates latestThen)

/-- What tokens are sorted by. -/
theorem isComparison_newest :
    IsComparison fun a b : BootstrapToken => decide (b.createdAt ≤ a.createdAt) :=
  Sorting.isComparison_latest.comap _

/-- The tokens of a table, in its order. -/
def values (entries : Entries BootstrapToken) : List BootstrapToken :=
  entries.map (·.2.value)

/-- The tokens of a table that were created at one time, in its order. -/
def ofTime (entries : Entries BootstrapToken) (time : Instant) : List BootstrapToken :=
  (values entries).filter (·.createdAt = time)

/-- That no two tokens of a table were created at one time. -/
def HasOwnTimes (entries : Entries BootstrapToken) : Prop :=
  ∀ a ∈ values entries, ∀ b ∈ values entries, a.createdAt = b.createdAt → a = b

/-- That tokens stand under their identifiers, each once. -/
abbrev IsFiled (entries : Entries BootstrapToken) : Prop :=
  entries.Labelled (·.2.value) (·.tokenId.text)

variable {entries others : Entries BootstrapToken} {h : Host}

theorem run_list (hlists : h.Lists .tokens entries) :
    (list.run Host.reply h).1 = .ok (newestFirst entries) :=
  congrArg Prod.fst (hlists.run_list fun entries => .done (newestFirst entries))

/-- Two tables are listed alike if and only if both enumerate the tokens of each time alike. -/
theorem newestFirst_eq_iff :
    newestFirst others = newestFirst entries ↔
      ∀ time, ofTime others time = ofTime entries time := by
  refine isComparison_newest.mergeSort_eq_iff.trans ?_
  simp only [Sorting.ties_latest]
  constructor
  · intro hties time
    -- A time at which nothing was created makes no difference.
    rcases hothers : ofTime others time with - | ⟨token, rest⟩
    · rcases hentries : ofTime entries time with - | ⟨token, rest⟩
      · rfl
      · have htoken : token ∈ ofTime entries time := hentries ▸ List.mem_cons_self
        obtain rfl : token.createdAt = time := of_decide_eq_true (List.mem_filter.mp htoken).2
        rw [← hothers, ← hentries]
        exact hties token
    · have htoken : token ∈ ofTime others time := hothers ▸ List.mem_cons_self
      obtain rfl : token.createdAt = time := of_decide_eq_true (List.mem_filter.mp htoken).2
      rw [← hothers]
      exact hties token
  · exact fun hsame token => hsame token.createdAt

theorem separates_iff :
    Separates (fun a b : BootstrapToken => decide (b.createdAt ≤ a.createdAt)) (values entries) ↔
      HasOwnTimes entries := by
  constructor
  · intro hseparates a ha b hb heq
    exact hseparates a ha b hb (decide_eq_true (Instant.le_of_eq heq.symm))
      (decide_eq_true (Instant.le_of_eq heq))
  · intro htimes a ha b hb hab hba
    exact htimes a ha b hb
      (Instant.le_antisymm (of_decide_eq_true hba) (of_decide_eq_true hab))

/-- The list is the same for all orders of a table if and only if the times tell its tokens
apart. -/
theorem newestFirst_perm_iff :
    (∀ others : Entries BootstrapToken, others.Perm entries →
        newestFirst others = newestFirst entries) ↔ HasOwnTimes entries := by
  rw [← separates_iff]
  exact (isComparison_newest.separates_map_iff _).symm

/-- Entries by key are listed by time and then by key. -/
theorem newestFirst_of_ascending (hfiled : IsFiled entries) (hascending : Json.Ascending entries) :
    (newestFirst entries).Pairwise fun a b =>
      b.createdAt < a.createdAt ∨
        a.createdAt = b.createdAt ∧ a.tokenId.text < b.tokenId.text := by
  have htie := Sorting.isComparison_textually fun token : BootstrapToken => token.tokenId.text
  have hordered : (values entries).Pairwise fun a b =>
      Sorting.textually (·.tokenId.text) a b := by
    rw [Json.Ascending, ← hfiled.map_label, List.pairwise_map] at hascending
    exact hascending.imp fun hlt => decide_eq_true (Std.le_of_lt hlt)
  have hsorted : newestFirst entries = (values entries).mergeSort
      (latestThen (·.createdAt) (Sorting.textually (·.tokenId.text))) :=
    Sorting.mergeSort_latest htie hordered
  rw [hsorted]
  refine (hfiled.pairwise_latestThen (·.createdAt) htie).imp fun hab => ?_
  refine hab.imp_right ?_
  rintro ⟨heq, htied, hne⟩
  exact ⟨heq, Sorting.lt_of_textually htied hne⟩

/-- Two enumerations of one table, of which the second is by key, are listed alike if and only if
the first enumerates the tokens of each time by identifier. -/
theorem ofTime_eq_iff (hfiled : IsFiled entries) (hperm : others.Perm entries)
    (hascending : Json.Ascending others) (time : Instant) :
    ofTime entries time = ofTime others time ↔
      (ofTime entries time).Pairwise fun a b => a.tokenId.text < b.tokenId.text := by
  have hordered : (ofTime others time).Pairwise fun a b => a.tokenId.text < b.tokenId.text := by
    rw [Json.Ascending, ← (hfiled.perm hperm).map_label, List.pairwise_map] at hascending
    exact hascending.filter _
  constructor
  · intro heq
    rwa [heq]
  · intro hentries
    have hsame : (ofTime entries time).Perm (ofTime others time) :=
      ((hperm.map _).filter _).symm
    exact hsame.eq_of_pairwise (fun a b _ _ hab hba => absurd hba (String.lt_asymm hab)) hentries
      hordered

/-- What is certain of the list of tokens, for every table of tokens. -/
structure Listing (entries : Entries BootstrapToken) : Prop where
  /-- Whoever lists the table is shown every token once, the newest first, and those of one time
  as the table enumerates them. -/
  shown : ∀ h : Host, h.Lists .tokens entries → ∃ tokens,
    (list.run Host.reply h).1 = .ok tokens ∧ tokens.Perm (values entries) ∧
      (tokens.Pairwise fun a b => b.createdAt ≤ a.createdAt) ∧
        ∀ time, tokens.filter (·.createdAt = time) = ofTime entries time
  /-- Two hosts show the same if and only if they enumerate the tokens of each time alike. -/
  alike : ∀ (others : Entries BootstrapToken) (h g : Host),
    h.Lists .tokens entries → g.Lists .tokens others →
      ((list.run Host.reply h).1 = (list.run Host.reply g).1 ↔
        ∀ time, ofTime entries time = ofTime others time)
  /-- All hosts that have the table show the same if and only if no two of its tokens were created
  at one time. -/
  canonical : (∀ others : Entries BootstrapToken, others.Perm entries → ∀ h g : Host,
    h.Lists .tokens entries → g.Lists .tokens others →
      (list.run Host.reply h).1 = (list.run Host.reply g).1) ↔ HasOwnTimes entries
  /-- A host with the table in a file shows those of one time by identifier. -/
  inFile : IsFiled entries → ∀ (h : Host) t, h.tables.table .tokens = .file t →
    h.Lists .tokens entries → ∃ tokens, (list.run Host.reply h).1 = .ok tokens ∧
      tokens.Pairwise fun a b => b.createdAt < a.createdAt ∨
        a.createdAt = b.createdAt ∧ a.tokenId.text < b.tokenId.text
  /-- Another host shows the same as that one if and only if it enumerates the tokens of each time
  by identifier. -/
  beside : IsFiled entries → ∀ others : Entries BootstrapToken, others.Perm entries →
    ∀ (h g : Host) t, g.tables.table .tokens = .file t →
      h.Lists .tokens entries → g.Lists .tokens others →
        ((list.run Host.reply h).1 = (list.run Host.reply g).1 ↔ ∀ time,
          (ofTime entries time).Pairwise fun a b => a.tokenId.text < b.tokenId.text)

/-- Whoever lists two tables is shown the same if and only if the tokens of each time stand in them
in the same order. -/
theorem run_list_eq_iff {g : Host} (hlists : h.Lists .tokens entries)
    (hothers : g.Lists .tokens others) :
    (list.run Host.reply h).1 = (list.run Host.reply g).1 ↔
      ∀ time, ofTime entries time = ofTime others time := by
  rw [run_list hlists, run_list hothers, Except.ok.injEq, newestFirst_eq_iff]

/-- The list of tokens is the newest first, and no more: what else there is of an order in it is
that of the table. -/
theorem token_listing (entries : Entries BootstrapToken) : Listing entries where
  shown h hlists := by
    have hsorted := isComparison_newest.pairwise_mergeSort (values entries)
    refine ⟨newestFirst entries, run_list hlists, List.mergeSort_perm _ _,
      hsorted.imp of_decide_eq_true, fun time => ?_⟩
    apply isComparison_newest.filter_mergeSort_of_pairwise
    refine List.pairwise_of_forall_mem_list fun a ha b hb => decide_eq_true ?_
    have haTime := of_decide_eq_true (List.mem_filter.mp ha).2
    have hbTime := of_decide_eq_true (List.mem_filter.mp hb).2
    exact Instant.le_of_eq (hbTime.trans haTime.symm)
  alike others h g hlists hothers := run_list_eq_iff hlists hothers
  canonical := by
    rw [← newestFirst_perm_iff]
    constructor
    · intro hsame others hperm
      obtain ⟨h, -, hlists⟩ := Host.exists_lists .tokens entries
      obtain ⟨g, -, hothers⟩ := Host.exists_lists .tokens others
      have heq := hsame others hperm h g hlists hothers
      rw [run_list hlists, run_list hothers] at heq
      exact (Except.ok.inj heq).symm
    · intro hsame others hperm h g hlists hothers
      rw [run_list hlists, run_list hothers, hsame others hperm]
  inFile hfiled h t hfile hlists :=
    ⟨newestFirst entries, run_list hlists,
      newestFirst_of_ascending hfiled (hlists.ascending hfile)⟩
  beside hfiled others hperm h g t hfile hlists hothers :=
    (run_list_eq_iff hlists hothers).trans
      (forall_congr' (ofTime_eq_iff hfiled hperm (hothers.ascending hfile)))

end CertAuthority.Tokens
