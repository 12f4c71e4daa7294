import CertAuthority.Proofs.Time.Instant

/-!
# Sorting what a table lists

A table may list its entries in any order.  What is sorted from them is the same for all orders if
and only if the comparison tells any two of them apart.  Of those that it does not tell apart, the
order in which they were listed is left; it is all that is left of the order of the table.
-/

namespace CertAuthority.Sorting

variable {α : Type} {le : α → α → Bool} {l : List α}

/-- That a comparison can be sorted by. -/
structure IsComparison (le : α → α → Bool) : Prop where
  trans : ∀ a b c, le a b → le b c → le a c
  total : ∀ a b, le a b || le b a

/-- That a comparison tells any two of a list apart. -/
def Separates (le : α → α → Bool) (l : List α) : Prop :=
  ∀ a ∈ l, ∀ b ∈ l, le a b → le b a → a = b

/-- Those of a list that a comparison does not tell apart from one, in their order. -/
def ties (le : α → α → Bool) (a : α) (l : List α) : List α :=
  l.filter fun b => le a b && le b a

theorem mem_ties {a b : α} : b ∈ ties le a l ↔ b ∈ l ∧ le a b ∧ le b a := by
  simp [ties]

theorem ties_cons_of_tied {a b : α} (hab : le a b) (hba : le b a) (l : List α) :
    ties le a (b :: l) = b :: ties le a l :=
  List.filter_cons_of_pos (by rw [hab, hba]; rfl)

theorem Separates.sublist {others : List α} (hseparates : Separates le l)
    (hsublist : others.Sublist l) : Separates le others :=
  fun a ha b hb => hseparates a (hsublist.subset ha) b (hsublist.subset hb)

namespace IsComparison

theorem refl (hle : IsComparison le) (a : α) : le a a := by
  simpa using hle.total a a

theorem pairwise_mergeSort (hle : IsComparison le) (l : List α) :
    (l.mergeSort le).Pairwise fun a b => le a b :=
  List.pairwise_mergeSort hle.trans hle.total l

theorem flip (hle : IsComparison le) : IsComparison fun a b => le b a where
  trans a b c hab hbc := hle.trans c b a hbc hab
  total a b := hle.total b a

/-- The comparison of what is told of each. -/
theorem comap {β : Type} (hle : IsComparison le) (f : β → α) :
    IsComparison fun a b => le (f a) (f b) where
  trans a b c := hle.trans (f a) (f b) (f c)
  total a b := hle.total (f a) (f b)

/-- There is one sorted list, if the comparison tells any two apart. -/
theorem eq_mergeSort (hle : IsComparison le) (hseparates : Separates le l) {sorted : List α}
    (hperm : sorted.Perm l) (hsorted : sorted.Pairwise fun a b => le a b) :
    sorted = l.mergeSort le := by
  apply (hperm.trans (List.mergeSort_perm l le).symm).eq_of_pairwise _ hsorted
    (hle.pairwise_mergeSort l)
  intro a b ha hb
  exact hseparates a (hperm.mem_iff.mp ha) b ((List.mergeSort_perm l le).mem_iff.mp hb)

/-- Then sorting before a choice and after it comes to the same. -/
theorem filter_mergeSort (hle : IsComparison le) (hseparates : Separates le l) (p : α → Bool) :
    (l.mergeSort le).filter p = (l.filter p).mergeSort le := by
  apply hle.eq_mergeSort
  · intro a ha b hb
    exact hseparates a (List.mem_filter.mp ha).1 b (List.mem_filter.mp hb).1
  · exact (List.mergeSort_perm l le).filter p
  · exact (hle.pairwise_mergeSort l).filter p

/-- And sorting the other way gives the list backwards. -/
theorem reverse_mergeSort (hle : IsComparison le) (hseparates : Separates le l) :
    (l.mergeSort le).reverse = l.mergeSort fun a b => le b a := by
  apply hle.flip.eq_mergeSort
  · exact fun a ha b hb hba hab => hseparates a ha b hb hab hba
  · exact (List.reverse_perm _).trans (List.mergeSort_perm l le)
  · exact List.pairwise_reverse.mpr (hle.pairwise_mergeSort l)

/-- Those that are in order already stay in their order. -/
theorem filter_mergeSort_of_pairwise (hle : IsComparison le) {p : α → Bool}
    (hordered : (l.filter p).Pairwise fun a b => le a b) :
    (l.mergeSort le).filter p = l.filter p := by
  have hsublist : (l.filter p).Sublist (l.mergeSort le) :=
    List.sublist_mergeSort hle.trans hle.total hordered List.filter_sublist
  have hlength : ((l.mergeSort le).filter p).length = (l.filter p).length :=
    ((List.mergeSort_perm l le).filter p).length_eq
  have hkept : (l.filter p).filter p = l.filter p := by simp
  refine (List.Sublist.eq_of_length ?_ hlength.symm).symm
  rw [← hkept]
  exact hsublist.filter p

/-- Those that the comparison does not tell apart are. -/
theorem ties_mergeSort (hle : IsComparison le) (a : α) (l : List α) :
    ties le a (l.mergeSort le) = ties le a l := by
  apply hle.filter_mergeSort_of_pairwise
  refine List.pairwise_of_forall_mem_list fun b hb c hc => ?_
  exact hle.trans b a c (mem_ties.mp hb).2.2 (mem_ties.mp hc).2.1

/-- Sorted lists in which the same stand in the same order, where they are not told apart, are the
same. -/
theorem eq_of_ties (hle : IsComparison le) {sorted others : List α}
    (hsorted : sorted.Pairwise fun a b => le a b) (hothers : others.Pairwise fun a b => le a b)
    (hties : ∀ a, ties le a sorted = ties le a others) : sorted = others := by
  induction sorted generalizing others with
  | nil =>
      cases others with
      | nil => rfl
      | cons b others =>
          have hb := hties b
          rw [ties_cons_of_tied (hle.refl b) (hle.refl b)] at hb
          cases hb
  | cons a sorted ih =>
      have ha := hties a
      rw [ties_cons_of_tied (hle.refl a) (hle.refl a)] at ha
      cases others with
      | nil => cases ha
      | cons b others =>
          -- Each of the two heads is found in the other list, so that they tie.
          have hfound : a ∈ b :: others := (mem_ties.mp (ha ▸ List.mem_cons_self)).1
          have hback : b ∈ a :: sorted := by
            have hb := hties b
            rw [ties_cons_of_tied (hle.refl b) (hle.refl b)] at hb
            exact (mem_ties.mp (hb ▸ List.mem_cons_self)).1
          have hba : le b a := by
            rcases List.mem_cons.mp hfound with rfl | hlater
            · exact hle.refl a
            · exact List.rel_of_pairwise_cons hothers hlater
          have hab : le a b := by
            rcases List.mem_cons.mp hback with rfl | hlater
            · exact hle.refl b
            · exact List.rel_of_pairwise_cons hsorted hlater
          rw [ties_cons_of_tied hab hba] at ha
          obtain rfl := (List.cons.inj ha).1
          refine congrArg _ (ih hsorted.of_cons hothers.of_cons fun c => ?_)
          have hc := hties c
          simp only [ties, List.filter_cons] at hc ⊢
          split at hc
          · exact (List.cons.inj hc).2
          · exact hc

/-- What is sorted is the same if and only if those that are not told apart were listed in the same
order. -/
theorem mergeSort_eq_iff (hle : IsComparison le) {others : List α} :
    l.mergeSort le = others.mergeSort le ↔ ∀ a, ties le a l = ties le a others := by
  constructor
  · intro heq a
    rw [← hle.ties_mergeSort a l, heq, hle.ties_mergeSort]
  · intro hties
    apply hle.eq_of_ties (hle.pairwise_mergeSort l) (hle.pairwise_mergeSort others)
    intro a
    rw [hle.ties_mergeSort, hle.ties_mergeSort, hties]

/-- Where any two are told apart, the order in which they were listed makes no difference. -/
theorem mergeSort_of_perm (hle : IsComparison le) (hseparates : Separates le l) {others : List α}
    (hperm : others.Perm l) : others.mergeSort le = l.mergeSort le :=
  hle.eq_mergeSort hseparates ((List.mergeSort_perm others le).trans hperm)
    (hle.pairwise_mergeSort others)

/-- It makes none only there, also if what is sorted is made of what was listed. -/
theorem separates_map_iff (hle : IsComparison le) {β : Type} (view : β → α) {listed : List β} :
    Separates le (listed.map view) ↔ ∀ others : List β, others.Perm listed →
      (others.map view).mergeSort le = (listed.map view).mergeSort le := by
  refine ⟨fun hseparates others hperm => hle.mergeSort_of_perm hseparates (hperm.map view), ?_⟩
  intro hsame a ha b hb hab hba
  -- Each of the two may come first, and then it comes first of all that are not told from `a`.
  have hfirst (c : α) (hc : c ∈ listed.map view) (hac : le a c) (hca : le c a) :
      ∃ rest, ties le a (listed.map view) = c :: rest := by
    obtain ⟨found, hfound, rfl⟩ := List.mem_map.mp hc
    obtain ⟨before, after, rfl⟩ := List.append_of_mem hfound
    have heq := hsame (found :: (before ++ after)) List.perm_middle.symm
    have hties := hle.mergeSort_eq_iff.mp heq a
    rw [List.map_cons, ties_cons_of_tied hac hca] at hties
    exact ⟨_, hties.symm⟩
  obtain ⟨rest, hrest⟩ := hfirst a ha (hle.refl a) (hle.refl a)
  obtain ⟨others, hothers⟩ := hfirst b hb hab hba
  exact (List.cons.inj (hrest.symm.trans hothers)).1

end IsComparison

/-! ### Comparisons by time and by text -/

/-- The lesser of two texts first. -/
def textually (text : α → String) (a b : α) : Bool :=
  text a ≤ text b

theorem isComparison_textually (text : α → String) : IsComparison (textually text) where
  trans _ _ _ hab hbc :=
    decide_eq_true (String.le_trans (of_decide_eq_true hab) (of_decide_eq_true hbc))
  total a b := by simpa [textually] using String.le_total (text a) (text b)

/-- What is not told apart by its text has one text. -/
theorem eq_of_textually {text : α → String} {a b : α} (hab : textually text a b)
    (hba : textually text b a) : text a = text b :=
  String.le_antisymm (of_decide_eq_true hab) (of_decide_eq_true hba)

theorem lt_of_textually {text : α → String} {a b : α} (hab : textually text a b)
    (hne : text a ≠ text b) : text a < text b :=
  Std.lt_of_le_of_ne (of_decide_eq_true hab) hne

/-- The later of two first. -/
theorem isComparison_latest : IsComparison fun a b : Instant => decide (b ≤ a) where
  trans _ _ _ hab hbc :=
    decide_eq_true (Instant.le_trans (of_decide_eq_true hbc) (of_decide_eq_true hab))
  total a b := by simpa using Instant.le_total b a

/-- The later first, and those of one time by another comparison. -/
def latestThen (time : α → Instant) (tie : α → α → Bool) (a b : α) : Bool :=
  if time b < time a then true else if time a < time b then false else tie a b

variable {time : α → Instant} {tie : α → α → Bool}

theorem latestThen_iff {a b : α} :
    latestThen time tie a b ↔ time b < time a ∨ time a = time b ∧ tie a b := by
  unfold latestThen
  rcases Instant.lt_or_eq_or_lt (time a) (time b) with hlt | heq | hlt
  · simp [hlt, Instant.lt_asymm hlt, Instant.ne_of_lt hlt]
  · simp [heq, Instant.lt_irrefl]
  · simp [hlt]

theorem isComparison_latestThen (time : α → Instant) (htie : IsComparison tie) :
    IsComparison (latestThen time tie) where
  trans a b c hab hbc := by
    rw [latestThen_iff] at hab hbc ⊢
    rcases hab with hab | ⟨hab, htab⟩
    · rcases hbc with hbc | ⟨hbc, -⟩
      · exact .inl (Instant.lt_trans hbc hab)
      · exact .inl (hbc ▸ hab)
    · rcases hbc with hbc | ⟨hbc, htbc⟩
      · exact .inl (hab ▸ hbc)
      · exact .inr ⟨hab.trans hbc, htie.trans a b c htab htbc⟩
  total a b := by
    simp only [Bool.or_eq_true, latestThen_iff]
    have htied : tie a b ∨ tie b a := by simpa using htie.total a b
    rcases Instant.lt_or_eq_or_lt (time a) (time b) with hlt | heq | hlt
    · exact .inr (.inl hlt)
    · exact htied.imp (fun htie => .inr ⟨heq, htie⟩) fun htie => .inr ⟨heq.symm, htie⟩
    · exact .inl (.inl hlt)

/-- What neither comes before the other has one time, and is not told apart by the rest. -/
theorem tie_of_latestThen {a b : α} (hab : latestThen time tie a b)
    (hba : latestThen time tie b a) : time a = time b ∧ tie a b ∧ tie b a := by
  rw [latestThen_iff] at hab hba
  rcases hab with hab | ⟨heq, hab⟩
  · rcases hba with hba | ⟨heq, -⟩
    · exact absurd hba (Instant.lt_asymm hab)
    · exact absurd heq.symm (Instant.ne_of_lt hab).symm
  · rcases hba with hba | ⟨-, hba⟩
    · exact absurd heq (Instant.ne_of_lt hba)
    · exact ⟨heq, hab, hba⟩

/-- Time does not tell apart what is of one time. -/
theorem ties_latest (time : α → Instant) (a : α) (l : List α) :
    ties (fun a b => decide (time b ≤ time a)) a l = l.filter fun b => time b = time a := by
  refine List.filter_congr fun b _ => ?_
  rw [← Bool.decide_and, decide_eq_decide]
  exact ⟨fun hle => Instant.le_antisymm hle.1 hle.2,
    fun heq => ⟨Instant.le_of_eq heq, Instant.le_of_eq heq.symm⟩⟩

/-- What is in order but for the time is sorted by time alone. -/
theorem mergeSort_latest (htie : IsComparison tie) (hordered : l.Pairwise fun a b => tie a b) :
    (l.mergeSort fun a b => decide (time b ≤ time a)) = l.mergeSort (latestThen time tie) := by
  have hlatest : IsComparison fun a b => decide (time b ≤ time a) := isComparison_latest.comap time
  have hboth := isComparison_latestThen time htie
  apply hlatest.eq_of_ties (hlatest.pairwise_mergeSort l)
  · refine (hboth.pairwise_mergeSort l).imp fun hab => decide_eq_true ?_
    rcases latestThen_iff.mp hab with hlt | ⟨heq, -⟩
    · exact Instant.le_of_lt hlt
    · exact Instant.le_of_eq heq.symm
  · intro a
    rw [hlatest.ties_mergeSort, ties_latest, ties_latest]
    -- Of one time they are in order already.
    refine (hboth.filter_mergeSort_of_pairwise ?_).symm
    refine (hordered.filter _).imp_of_mem fun hb hc htied => latestThen_iff.mpr (.inr ⟨?_, htied⟩)
    have hbTime := of_decide_eq_true (List.mem_filter.mp hb).2
    have hcTime := of_decide_eq_true (List.mem_filter.mp hc).2
    exact hbTime.trans hcTime.symm

end CertAuthority.Sorting
