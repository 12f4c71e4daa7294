import CertAuthority.Text.Character
import Mathlib.Data.List.TakeWhile

/-!
# What trimming leaves

A trimmed text has no blank at either end, and it is empty only if there were none but blanks.
Trimming leaves such texts alone, whatever blanks are put around them.
-/

namespace CertAuthority.Text

/-- That a text has no blank at either end. -/
structure IsTrimmed (s : String) : Prop where
  first : ∀ c ∈ s.toList.head?, isBlank c = false
  last : ∀ c ∈ s.toList.getLast?, isBlank c = false

theorem isBlank_of_head?_trimStart {s : List Char} {c : Char}
    (hc : c ∈ (trimStart s).head?) : isBlank c = false := by
  have hhead := List.head?_dropWhile_not isBlank s
  rw [Option.mem_def] at hc
  rw [← trimStart, hc] at hhead
  simpa using hhead

theorem prefix_trimEnd (s : List Char) : trimEnd s <+: s := by
  have hsuffix := List.dropWhile_suffix isBlank (l := s.reverse)
  rw [← List.reverse_prefix, List.reverse_reverse] at hsuffix
  exact hsuffix

theorem isTrimmed_trim (s : String) : IsTrimmed (trim s) where
  first := by
    intro c hc
    rw [trim, String.toList_ofList, trimChars] at hc
    obtain ⟨rest, hrest⟩ := prefix_trimEnd (trimStart s.toList)
    apply isBlank_of_head?_trimStart (s := s.toList)
    rw [← hrest, List.head?_append, Option.mem_def.mp hc]
    rfl
  last := by
    intro c hc
    rw [trim, String.toList_ofList, trimChars, trimEnd, List.getLast?_reverse] at hc
    exact isBlank_of_head?_trimStart hc

/-- A text that is not blank leaves something when it is trimmed. -/
theorem trim_ne_empty {s : String} (hs : isAllBlank s = false) : trim s ≠ "" := by
  intro htrim
  have hchars : trimEnd (trimStart s.toList) = [] := by simpa [trim, trimChars] using htrim
  rw [trimEnd, List.reverse_eq_nil_iff, List.dropWhile_eq_nil_iff] at hchars
  have hempty : trimStart s.toList = [] := by
    cases hrest : trimStart s.toList with
    | nil => rfl
    | cons c rest =>
        have hblank := hchars c (by simp [hrest])
        rw [isBlank_of_head?_trimStart (s := s.toList) (by rw [hrest]; rfl)] at hblank
        cases hblank
  rw [trimStart, List.dropWhile_eq_nil_iff] at hempty
  rw [isAllBlank, List.all_eq_true.mpr hempty] at hs
  cases hs

theorem trimStart_eq_self {s : List Char} (hfirst : ∀ c ∈ s.head?, isBlank c = false) :
    trimStart s = s := by
  cases s with
  | nil => rfl
  | cons c rest => exact List.dropWhile_cons_of_neg (by simp [hfirst c rfl])

theorem trimEnd_eq_self {s : List Char} (hlast : ∀ c ∈ s.getLast?, isBlank c = false) :
    trimEnd s = s := by
  rw [← List.head?_reverse] at hlast
  rw [trimEnd, ← trimStart, trimStart_eq_self hlast, List.reverse_reverse]

theorem trimChars_eq_self {s : List Char} (hfirst : ∀ c ∈ s.head?, isBlank c = false)
    (hlast : ∀ c ∈ s.getLast?, isBlank c = false) : trimChars s = s := by
  rw [trimChars, trimStart_eq_self hfirst, trimEnd_eq_self hlast]

theorem trim_eq_self_iff (s : String) : trim s = s ↔ IsTrimmed s := by
  constructor
  · intro htrim
    rw [← htrim]
    exact isTrimmed_trim s
  · intro htrimmed
    rw [trim, trimChars_eq_self htrimmed.first htrimmed.last, String.ofList_toList]

theorem trimEnd_append {after : List Char} (hafter : ∀ c ∈ after, isBlank c) (s : List Char) :
    trimEnd (s ++ after) = trimEnd s := by
  rw [trimEnd, List.reverse_append,
    List.dropWhile_append_of_pos fun c hc => hafter c (List.mem_reverse.mp hc), trimEnd]

/-- Blanks around a text make no difference. -/
theorem trimChars_append {before after : List Char} (hbefore : ∀ c ∈ before, isBlank c)
    (hafter : ∀ c ∈ after, isBlank c) (s : List Char) :
    trimChars (before ++ (s ++ after)) = trimChars s := by
  rw [trimChars, trimStart, List.dropWhile_append_of_pos hbefore, List.dropWhile_append, trimChars]
  split
  · next hempty =>
      rw [trimStart, List.isEmpty_iff.mp hempty, List.dropWhile_eq_nil_iff.mpr hafter]
  · exact trimEnd_append hafter _

/-- The blanks at the front of a text. -/
def leadingBlanks (s : List Char) : List Char :=
  s.takeWhile isBlank

/-- The blanks at the end of a text, if there is anything else in front of them. -/
def trailingBlanks (s : List Char) : List Char :=
  ((trimStart s).reverse.takeWhile isBlank).reverse

theorem leadingBlanks_append (s : List Char) :
    leadingBlanks s ++ (trimChars s ++ trailingBlanks s) = s := by
  rw [leadingBlanks, trimChars, trimEnd, trailingBlanks, ← List.reverse_append,
    List.takeWhile_append_dropWhile, List.reverse_reverse, trimStart,
    List.takeWhile_append_dropWhile]

/-- What is trimmed away is blank. -/
theorem exists_eq_append_trimChars (s : List Char) : ∃ before after,
    s = before ++ (trimChars s ++ after) ∧ (∀ c ∈ before, isBlank c) ∧ ∀ c ∈ after, isBlank c :=
  ⟨leadingBlanks s, trailingBlanks s, (leadingBlanks_append s).symm,
    fun _ hc => List.mem_takeWhile_imp hc,
    fun _ hc => List.mem_takeWhile_imp (List.mem_reverse.mp hc)⟩

end CertAuthority.Text
