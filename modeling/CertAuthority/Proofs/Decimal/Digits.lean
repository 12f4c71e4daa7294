import Mathlib.Algebra.Group.Nat.Defs

/-!
# Numbers as digits

A number is written with digits of a base, without zeros in front.  Whoever gives the digits their
values reads the number back.
-/

namespace CertAuthority.Digits

variable {b : Nat}

/-- What holds of all digits of a base holds of all characters of a number. -/
theorem forall_mem_toDigits (hb : 1 < b) {P : Char → Prop}
    (hdigit : ∀ d < b, P d.digitChar) (n : Nat) : ∀ c ∈ Nat.toDigits b n, P c := by
  induction n using Nat.strongRecOn with
  | ind n ih =>
      rcases Nat.lt_or_ge n b with hlt | hge
      · rw [Nat.toDigits_of_lt_base hlt]
        intro c hc
        rw [List.mem_singleton.mp hc]
        exact hdigit n hlt
      · rw [Nat.toDigits_of_base_le hb hge]
        intro c hc
        rcases List.mem_append.mp hc with hearlier | hlast
        · exact ih (n / b) (Nat.div_lt_self (by omega) hb) c hearlier
        · rw [List.mem_singleton.mp hlast]
          exact hdigit _ (Nat.mod_lt _ (by omega))

/-- The number is read back by whoever gives each digit its value. -/
theorem foldl_toDigits (hb : 1 < b) {f : Char → Nat}
    (hvalue : ∀ d < b, f d.digitChar = d) (n : Nat) :
    (Nat.toDigits b n).foldl (fun m c => m * b + f c) 0 = n := by
  induction n using Nat.strongRecOn with
  | ind n ih =>
      rcases Nat.lt_or_ge n b with hlt | hge
      · rw [Nat.toDigits_of_lt_base hlt]
        simp [hvalue n hlt]
      · rw [Nat.toDigits_of_base_le hb hge, List.foldl_append,
          ih (n / b) (Nat.div_lt_self (by omega) hb), List.foldl_cons, List.foldl_nil,
          hvalue _ (Nat.mod_lt _ (by omega)), Nat.mul_comm]
        exact Nat.div_add_mod n b

/-- No number but zero begins with a zero. -/
theorem exists_head?_toDigits (hb : 1 < b) {n : Nat} (hn : 0 < n) :
    ∃ d, 0 < d ∧ d < b ∧ (Nat.toDigits b n).head? = some d.digitChar := by
  induction n using Nat.strongRecOn with
  | ind n ih =>
      rcases Nat.lt_or_ge n b with hlt | hge
      · exact ⟨n, hn, hlt, by rw [Nat.toDigits_of_lt_base hlt]; rfl⟩
      · obtain ⟨d, hpos, hlt, hhead⟩ :=
          ih (n / b) (Nat.div_lt_self (by omega) hb) (Nat.div_pos hge (by omega))
        refine ⟨d, hpos, hlt, ?_⟩
        rw [Nat.toDigits_of_base_le hb hge, List.head?_append, hhead]
        rfl

end CertAuthority.Digits
