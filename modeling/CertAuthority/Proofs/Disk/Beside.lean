import CertAuthority.Disk.AtomicWrite
import CertAuthority.Proofs.Decimal.Digits
import CertAuthority.Proofs.Disk.Parent

/-!
# Names beside a file

A path that ends with a name is that name, or the name behind a slash.  What is put behind the
path is put behind the name, and what is written first stands beside it under another name.
-/

namespace CertAuthority

namespace Path

/-- What a text is behind its last slash. -/
theorem exists_last (l : List Char) :
    ∃ s t, '/' ∉ t ∧ (l = t ∨ l = s ++ '/' :: t) := by
  induction l with
  | nil => exact ⟨[], [], List.not_mem_nil, .inl rfl⟩
  | cons c l ih =>
      obtain ⟨s, t, hslash, rfl | rfl⟩ := ih
      · by_cases hc : c = '/'
        · exact ⟨[], l, hslash, .inr (by rw [hc]; rfl)⟩
        · exact ⟨[], c :: l, fun hmem => (List.mem_cons.mp hmem).elim (hc ·.symm) hslash, .inl rfl⟩
      · exact ⟨c :: s, t, hslash, .inr rfl⟩

/-- What is put behind a name makes another name of it. -/
theorem append_ne {name suffix other : String}
    (hshort : other.utf8ByteSize < suffix.utf8ByteSize) : name ++ suffix ≠ other := by
  rintro rfl
  rw [String.utf8ByteSize_append] at hshort
  omega

namespace Ends

variable {path name : String}

/-- A path ends with a name that has no slash, and nothing stands in front of it but for a slash. -/
theorem cases (hends : Ends path name) :
    '/' ∉ name.toList ∧ name ≠ "" ∧
      (path = name ∨ ∃ s, path.toList = s ++ '/' :: name.toList) := by
  obtain ⟨hlast, parts, hparts⟩ := hends
  obtain ⟨s, t, hslash, hpath⟩ := exists_last path.toList
  have hsplit : ∃ above, splitSlashes path.toList = above ++ [t] := by
    rcases hpath with heq | heq
    · exact ⟨[], by rw [heq, splitSlashes_of_not_mem hslash]; rfl⟩
    · exact ⟨splitSlashes s, by rw [heq, splitSlashes_append, splitSlashes_of_not_mem hslash]⟩
  obtain ⟨above, habove⟩ := hsplit
  have hne : t ≠ [] := by
    rintro rfl
    rcases hpath with heq | heq
    · rw [heq] at hparts
      exact absurd hparts (by simp [splitSlashes])
    · exact hlast (by simp [heq])
  have hname : t = name.toList := by
    have hkept : [t].filter (· ≠ []) = [t] := by simp [hne]
    rw [habove, List.filter_append, hkept] at hparts
    exact List.singleton_inj.mp (List.append_inj' hparts rfl).2
  subst hname
  refine ⟨hslash, by simpa using hne, ?_⟩
  rcases hpath with heq | heq
  · exact .inl (String.toList_injective heq)
  · exact .inr ⟨s, heq⟩

/-- What is put behind a path is put behind its last name. -/
theorem append (hends : Ends path name) {suffix : String} (hslash : '/' ∉ suffix.toList) :
    Ends (path ++ suffix) (name ++ suffix) := by
  obtain ⟨hname, hne, hpath⟩ := hends.cases
  have hboth : '/' ∉ (name ++ suffix).toList := by
    simp [hname, hslash]
  have hsome : name ++ suffix ≠ "" := by
    simp [hne]
  rcases hpath with rfl | ⟨s, hs⟩
  · exact ends_self hboth hsome
  · exact ends_of_slash hboth hsome (s := s) (by simp [hs])

/-- The last name of a path is its file name. -/
theorem fileName? (hends : Ends path name) (hpoint : name ≠ ".") (hpoints : name ≠ "..") :
    Path.fileName? path = some name := by
  obtain ⟨hslash, hne, hpath⟩ := hends.cases
  have hvoid : name.toList ≠ [] ∧ name.toList ≠ ['.'] ∧ name.toList ≠ ['.', '.'] := by
    refine ⟨by simpa using hne, fun heq => hpoint ?_, fun heq => hpoints ?_⟩
    · exact String.toList_injective heq
    · exact String.toList_injective heq
  have hparts : ∃ above, Path.parts path = above ++ [name.toList] := by
    have hkept : isVoid name.toList = false := by simp [isVoid, hvoid]
    rcases hpath with rfl | ⟨s, hs⟩
    · exact ⟨[], by rw [Path.parts, splitSlashes_of_not_mem hslash]; rfl⟩
    · refine ⟨splitSlashes s, ?_⟩
      rw [Path.parts, hs, splitSlashes_append, splitSlashes_of_not_mem hslash,
        trimVoid_concat _ hkept]
  obtain ⟨above, habove⟩ := hparts
  rw [Path.fileName?, habove, List.getLast?_concat]
  simp [hvoid]

end Ends

end Path

namespace AtomicWrite

variable {name : String}

/-- The name under which a file is written first has no slash either. -/
theorem not_mem_temporaryName (hslash : '/' ∉ name.toList) (nonce : Nat) :
    '/' ∉ (temporaryName name nonce).toList := by
  have hdigits : '/' ∉ Nat.toDigits 10 nonce := fun hmem =>
    Digits.forall_mem_toDigits (P := (· ≠ '/')) (by decide) (by decide) nonce _ hmem rfl
  simpa [temporaryName, hslash] using hdigits

/-- It is longer than the name of the file. -/
theorem size_temporaryName (name : String) (nonce : Nat) :
    name.utf8ByteSize + 6 ≤ (temporaryName name nonce).utf8ByteSize := by
  have hpoint : ".".utf8ByteSize = 1 := rfl
  have hend : ".tmp".utf8ByteSize = 4 := rfl
  simp only [temporaryName, String.utf8ByteSize_append, hpoint, hend]
  omega

theorem temporaryName_ne {name other : String} {nonce : Nat}
    (hshort : other.utf8ByteSize < name.utf8ByteSize + 6) : temporaryName name nonce ≠ other := by
  rintro rfl
  exact Nat.not_lt.mpr (size_temporaryName name nonce) hshort

end AtomicWrite

end CertAuthority
