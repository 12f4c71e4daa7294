import CertAuthority.Proofs.Request.Sharing
import CertAuthority.Proofs.Store.Enumeration

/-!
# The lists of requests

Requests stand under their identifiers, so that time and identifier tell any two apart.  Whoever
lists them is shown one list, and whoever lists those that wait for a decision one queue, which is
that part of the list read backwards; neither depends on where the requests are kept and in what
order they are enumerated there.
-/

namespace CertAuthority.Ledger

open Sorting (IsComparison Separates latestThen)

/-- That requests stand under their identifiers, each once. -/
abbrev IsFiled (entries : Entries CertificateRequest) : Prop :=
  entries.Labelled (·.2.value) (·.requestId.text)

/-- All requests of a world, as they are listed. -/
def listOf (w : World) : List CertificateRequest :=
  ordered (w.tables .requests).entries

/-- The requests of a world that wait for a decision, as they are listed. -/
def queueOf (w : World) : List CertificateRequest :=
  queue (w.tables .requests).entries

/-- Of two identifiers the greater first. -/
def greaterFirst : CertificateRequest → CertificateRequest → Bool :=
  fun a b => Sorting.textually (·.requestId.text) b a

theorem isComparison_greaterFirst : IsComparison greaterFirst :=
  (Sorting.isComparison_textually _).flip

theorem newerFirst_eq : newerFirst = latestThen CertificateRequest.submittedAt greaterFirst :=
  rfl

theorem isComparison_newerFirst : IsComparison newerFirst :=
  Sorting.isComparison_latestThen _ isComparison_greaterFirst

/-- Requests of which neither comes first have one identifier. -/
theorem identifier_of_newerFirst {a b : CertificateRequest} (hab : newerFirst a b)
    (hba : newerFirst b a) : a.requestId.text = b.requestId.text := by
  rw [newerFirst_eq] at hab hba
  obtain ⟨-, hle, hge⟩ := Sorting.tie_of_latestThen hab hba
  exact Sorting.eq_of_textually hge hle

section Entries

variable {entries others : Entries CertificateRequest}

theorem separates (hfiled : IsFiled entries) :
    Separates newerFirst (entries.map (·.2.value)) :=
  hfiled.separates fun _ _ => identifier_of_newerFirst

/-- The list does not depend on the order in which requests are enumerated. -/
theorem ordered_of_perm (hfiled : IsFiled entries) (hperm : others.Perm entries) :
    ordered others = ordered entries :=
  isComparison_newerFirst.mergeSort_of_perm (separates hfiled) (hperm.map _)

/-- The queue is a part of the list, backwards. -/
theorem queue_eq_reverse (hfiled : IsFiled entries) :
    queue entries = ((ordered entries).filter (·.status = .pendingApproval)).reverse := by
  have hpending : Separates newerFirst
      ((entries.map (·.2.value)).filter (·.status = .pendingApproval)) :=
    (separates hfiled).sublist List.filter_sublist
  rw [ordered, isComparison_newerFirst.filter_mergeSort (separates hfiled),
    isComparison_newerFirst.reverse_mergeSort hpending]
  rfl

/-- So the queue does not depend on the order either. -/
theorem queue_of_perm (hfiled : IsFiled entries) (hperm : others.Perm entries) :
    queue others = queue entries := by
  rw [queue_eq_reverse hfiled, queue_eq_reverse (hfiled.perm hperm),
    ordered_of_perm hfiled hperm]

/-- The later come first, and of one time the greater identifiers. -/
theorem pairwise_ordered (hfiled : IsFiled entries) : (ordered entries).Pairwise fun a b =>
    b.submittedAt < a.submittedAt ∨
      a.submittedAt = b.submittedAt ∧ b.requestId.text < a.requestId.text := by
  refine (hfiled.pairwise_latestThen _ isComparison_greaterFirst).imp fun hab => ?_
  exact hab.imp_right fun ⟨heq, htied, hne⟩ =>
    ⟨heq, Sorting.lt_of_textually htied hne.symm⟩

end Entries

/-- What was entered as a request stands under its identifier. -/
theorem isFiled_of_law {admits : Submission → Prop} {w : World} (hlaw : Law admits w)
    (horderly : w.Orderly) : IsFiled (w.tables .requests).entries :=
  .of_find (horderly .requests) fun key entry hfind => by
    have hrecord := hlaw.1 key
    rw [show w.find? .requests key = some entry from hfind] at hrecord
    exact hrecord.identifier

/-- Of one there is nothing to turn round. -/
theorem reverse_filter_toList {α : Type} (p : α → Bool) (found : Option α) :
    (found.toList.filter p).reverse = (found.filter p).toList := by
  cases found with
  | none => rfl
  | some a => cases hp : p a <;> simp [Option.filter, hp]

/-- What is certain of the lists of requests, after any moves. -/
structure Listing (stores : Stores) (moves : List (Move desk)) : Prop where
  /-- Every host that has the requests lists the same, wherever it keeps them, and in whatever
  order it enumerates them. -/
  listed : ∀ h : Host, h.Holds .requests (Office.run stores moves).world →
    (list.run Host.reply h).1 = .ok (listOf (Office.run stores moves).world)
  /-- So it does with those that wait for a decision. -/
  queued : ∀ h : Host, h.Holds .requests (Office.run stores moves).world →
    (listPending.run Host.reply h).1 = .ok (queueOf (Office.run stores moves).world)
  /-- A host may have them in memory in any order, or in a file that was asked the same. -/
  held : ∀ h : Host,
    (∃ m, h.tables.table .requests = .memory m ∧
        m.entries.Perm ((Office.run stores moves).world.tables .requests).entries) ∨
      (∃ t asks, h.tables.table .requests = .file t ∧
        Table.Matches asks ((Office.run stores moves).world.tables .requests) t h.disk) →
    h.Holds .requests (Office.run stores moves).world
  /-- Every request is listed once, and nothing else is. -/
  once : ∀ key, (listOf (Office.run stores moves).world).filter (·.requestId.text = key) =
    (((Office.run stores moves).world.find? .requests key).map (·.value)).toList
  /-- The later are listed first, and of one time the greater identifiers. -/
  descending : (listOf (Office.run stores moves).world).Pairwise fun a b =>
    b.submittedAt < a.submittedAt ∨
      a.submittedAt = b.submittedAt ∧ b.requestId.text < a.requestId.text
  /-- The queue is the pending part of the list, backwards. -/
  mirrored : queueOf (Office.run stores moves).world =
    ((listOf (Office.run stores moves).world).filter (·.status = .pendingApproval)).reverse
  /-- Every request that waits for a decision is queued once, and nothing else is. -/
  pending : ∀ key, (queueOf (Office.run stores moves).world).filter (·.requestId.text = key) =
    ((((Office.run stores moves).world.find? .requests key).map (·.value)).filter
      (·.status = .pendingApproval)).toList

section Run

variable (stores : Stores) (moves : List (Move desk))

theorem isFiled_run : IsFiled ((Office.run stores moves).world.tables .requests).entries :=
  isFiled_of_law (abides stores moves).lawful (abides stores moves).reachable.orderly

/-- Every request is listed once, and nothing else is. -/
theorem filter_listOf (key : String) :
    (listOf (Office.run stores moves).world).filter (·.requestId.text = key) =
      (((Office.run stores moves).world.find? .requests key).map (·.value)).toList :=
  (isFiled_run stores moves).filter_label newerFirst key

/-- The queue is the pending part of the list, backwards. -/
theorem queueOf_eq_reverse : queueOf (Office.run stores moves).world =
    ((listOf (Office.run stores moves).world).filter (·.status = .pendingApproval)).reverse :=
  queue_eq_reverse (isFiled_run stores moves)

/-- There is one list of the requests, and one queue. -/
theorem request_listing : Listing stores moves where
  listed := by
    rintro h ⟨entries, hlists, hperm⟩
    rw [listOf, ← ordered_of_perm (isFiled_run stores moves) hperm]
    exact congrArg Prod.fst (hlists.run_list fun entries => .done (ordered entries))
  queued := by
    rintro h ⟨entries, hlists, hperm⟩
    rw [queueOf, ← queue_of_perm (isFiled_run stores moves) hperm]
    exact congrArg Prod.fst (hlists.run_list fun entries => .done (queue entries))
  held := fun _ => Host.holds_of_kept
  once := filter_listOf stores moves
  descending := pairwise_ordered (isFiled_run stores moves)
  mirrored := queueOf_eq_reverse stores moves
  pending := by
    intro key
    rw [queueOf_eq_reverse, List.filter_reverse, List.filter_comm, filter_listOf]
    exact reverse_filter_toList _ _

end Run

end CertAuthority.Ledger
