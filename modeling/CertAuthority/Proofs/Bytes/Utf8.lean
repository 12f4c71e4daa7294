import CertAuthority.Bytes.Basic
import Mathlib.Logic.Basic

/-!
# Text as UTF-8 and back

Every text is what its UTF-8 form is read as.
-/

namespace CertAuthority.Bytes

theorem toNat_ofNat_of_lt {n : Nat} (hn : n < 256) : (UInt8.ofNat n).toNat = n :=
  UInt8.toNat_ofNat_of_lt' hn

theorem ofNat_lt_iff {n : Nat} (k : Nat) (hn : n < 256) (hk : k < 256) :
    UInt8.ofNat n < UInt8.ofNat k ↔ n < k := by
  rw [UInt8.lt_iff_toNat_lt, toNat_ofNat_of_lt hn, toNat_ofNat_of_lt hk]

theorem continuation_ofNat {n : Nat} (hn : n < 64) :
    continuation (UInt8.ofNat (n + 128)) = some n := by
  have hb : (UInt8.ofNat (n + 128)).toNat = n + 128 := toNat_ofNat_of_lt (by omega)
  have hlow : 0x80 ≤ UInt8.ofNat (n + 128) := by
    rw [UInt8.le_iff_toNat_le, hb]
    exact Nat.le_add_left _ _
  have hhigh : UInt8.ofNat (n + 128) ≤ 0xBF := by
    rw [UInt8.le_iff_toNat_le, hb]
    change n + 128 ≤ 191
    omega
  rw [continuation, if_pos ⟨hlow, hhigh⟩, hb]
  simp

section Forms

variable {lead second third fourth : UInt8} {w x y z n : Nat} (rest : Bytes)

theorem bind_cons (c : Char) (tail : Option (List Char)) :
    (tail.bind fun cs => some (c :: cs)) = tail.map (c :: ·) := by
  cases tail <;> rfl

theorem decodeUtf8_one (hlead : lead.toNat = n) (hone : lead < 0x80) :
    decodeUtf8 (lead :: rest) = (decodeUtf8 rest).map (Char.ofNat n :: ·) := by
  rw [decodeUtf8.eq_def]
  dsimp only
  rw [if_pos hone, hlead]

theorem decodeUtf8_two (hlead : lead.toNat = w + 0xC0) (hsecond : continuation second = some x)
    (hone : ¬ lead < 0x80) (hlone : ¬ lead < 0xC2) (htwo : lead < 0xE0)
    (hcode : w * 64 + x = n) :
    decodeUtf8 (lead :: second :: rest) = (decodeUtf8 rest).map (Char.ofNat n :: ·) := by
  rw [decodeUtf8.eq_def]
  dsimp only
  rw [if_neg hone, if_neg hlone, if_pos htwo, hsecond, hlead, Nat.add_sub_cancel]
  rw [Option.bind_eq_bind, Option.bind_some, hcode]
  exact bind_cons _ _

theorem decodeUtf8_three (hlead : lead.toNat = w + 0xE0) (hsecond : continuation second = some x)
    (hthird : continuation third = some y) (hone : ¬ lead < 0x80) (hlone : ¬ lead < 0xC2)
    (htwo : ¬ lead < 0xE0) (hthree : lead < 0xF0) (hcode : w * 4096 + x * 64 + y = n)
    (hvalid : ¬ (n < 0x800 ∨ (0xD800 ≤ n ∧ n ≤ 0xDFFF))) :
    decodeUtf8 (lead :: second :: third :: rest) =
      (decodeUtf8 rest).map (Char.ofNat n :: ·) := by
  rw [decodeUtf8.eq_def]
  dsimp only
  rw [if_neg hone, if_neg hlone, if_neg htwo, if_pos hthree, hsecond, hthird, hlead,
    Nat.add_sub_cancel]
  rw [Option.bind_eq_bind, Option.bind_some, Option.bind_eq_bind, Option.bind_some, hcode,
    if_neg hvalid]
  exact bind_cons _ _

theorem decodeUtf8_four (hlead : lead.toNat = w + 0xF0) (hsecond : continuation second = some x)
    (hthird : continuation third = some y) (hfourth : continuation fourth = some z)
    (hone : ¬ lead < 0x80) (hlone : ¬ lead < 0xC2) (htwo : ¬ lead < 0xE0) (hthree : ¬ lead < 0xF0)
    (hfour : lead < 0xF5) (hcode : w * 262144 + x * 4096 + y * 64 + z = n)
    (hvalid : ¬ (n < 0x10000 ∨ 0x110000 ≤ n)) :
    decodeUtf8 (lead :: second :: third :: fourth :: rest) =
      (decodeUtf8 rest).map (Char.ofNat n :: ·) := by
  rw [decodeUtf8.eq_def]
  dsimp only
  rw [if_neg hone, if_neg hlone, if_neg htwo, if_neg hthree, if_pos hfour, hsecond, hthird,
    hfourth, hlead, Nat.add_sub_cancel]
  rw [Option.bind_eq_bind, Option.bind_some, Option.bind_eq_bind, Option.bind_some,
    Option.bind_eq_bind, Option.bind_some, hcode, if_neg hvalid]
  exact bind_cons _ _

end Forms

/-- One character is read back, whatever follows it. -/
theorem decodeUtf8_utf8EncodeChar (c : Char) (rest : Bytes) :
    decodeUtf8 (String.utf8EncodeChar c ++ rest) = (decodeUtf8 rest).map (c :: ·) := by
  have hvalid : c.toNat < 0xD800 ∨ 0xDFFF < c.toNat ∧ c.toNat < 0x110000 := c.valid
  have hchar : Char.ofNat c.toNat = c := Char.ofNat_toNat c
  have hval : c.val.toNat = c.toNat := rfl
  rw [String.utf8EncodeChar, hval]
  generalize c.toNat = n at hvalid hchar ⊢
  rw [← hchar]
  split
  · next hone =>
      exact decodeUtf8_one rest (toNat_ofNat_of_lt (by omega))
        ((ofNat_lt_iff 0x80 (by omega) (by decide)).mpr (by omega))
  · split
    · next htwo =>
        have hlt (k : Nat) (hk : k < 256) := ofNat_lt_iff (n := n / 64 % 32 + 192) k (by omega) hk
        exact decodeUtf8_two rest (toNat_ofNat_of_lt (by omega)) (continuation_ofNat (by omega))
          ((hlt 0x80 (by decide)).not.mpr (by omega)) ((hlt 0xC2 (by decide)).not.mpr (by omega))
          ((hlt 0xE0 (by decide)).mpr (by omega)) (by omega)
    · split
      · next hthree =>
          have hlt (k : Nat) (hk : k < 256) :=
            ofNat_lt_iff (n := n / 4096 % 16 + 224) k (by omega) hk
          exact decodeUtf8_three rest (toNat_ofNat_of_lt (by omega)) (continuation_ofNat (by omega))
            (continuation_ofNat (by omega)) ((hlt 0x80 (by decide)).not.mpr (by omega))
            ((hlt 0xC2 (by decide)).not.mpr (by omega)) ((hlt 0xE0 (by decide)).not.mpr (by omega))
            ((hlt 0xF0 (by decide)).mpr (by omega)) (by omega) (by omega)
      · next hthree =>
          have hlt (k : Nat) (hk : k < 256) :=
            ofNat_lt_iff (n := n / 262144 % 8 + 240) k (by omega) hk
          exact decodeUtf8_four rest (toNat_ofNat_of_lt (by omega)) (continuation_ofNat (by omega))
            (continuation_ofNat (by omega)) (continuation_ofNat (by omega))
            ((hlt 0x80 (by decide)).not.mpr (by omega)) ((hlt 0xC2 (by decide)).not.mpr (by omega))
            ((hlt 0xE0 (by decide)).not.mpr (by omega)) ((hlt 0xF0 (by decide)).not.mpr (by omega))
            ((hlt 0xF5 (by decide)).mpr (by omega)) (by omega) (by omega)

theorem decodeUtf8_flatMap (cs : List Char) :
    decodeUtf8 (cs.flatMap String.utf8EncodeChar) = some cs := by
  induction cs with
  | nil => rfl
  | cons c cs ih => rw [List.flatMap_cons, decodeUtf8_utf8EncodeChar, ih, Option.map_some]

/-- A text is read back from its bytes. -/
theorem toString?_ofString (s : String) : toString? (ofString s) = some s := by
  rw [toString?, ofString, decodeUtf8_flatMap, Option.map_some, String.ofList_toList]

end CertAuthority.Bytes
