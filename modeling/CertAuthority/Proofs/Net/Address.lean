import CertAuthority.Net.Address
import CertAuthority.Proofs.Decimal.Digits

/-!
# Addresses as text and back

Every address is read back from its written form.
-/

namespace CertAuthority.IpAddress

/-- That what follows is not a digit of a base. -/
def EndsAt (base : Nat) (rest : List Char) : Prop :=
  ∀ c, rest.head? = some c → digitValue base c = none

theorem endsAt_nil (base : Nat) : EndsAt base [] := nofun

theorem endsAt_cons {base : Nat} {c : Char} (hc : digitValue base c = none) (rest : List Char) :
    EndsAt base (c :: rest) := by
  rintro d ⟨⟩
  exact hc

section Numbers

variable {base width n : Nat} {rest : List Char}

/-- A number is read back from its digits in a base, if they are not too many. -/
theorem number_toDigits (hbase : 1 < base)
    (hdigit : ∀ d < base, digitValue base d.digitChar = some d) (hwidth : 0 < width)
    (hn : n < base ^ width) (hends : EndsAt base rest) :
    number base width (Nat.toDigits base n ++ rest) = some (n, rest) := by
  have htaken : (Nat.toDigits base n ++ rest).takeWhile (fun c => (digitValue base c).isSome) =
      Nat.toDigits base n := by
    have hdigits : ∀ c ∈ Nat.toDigits base n, (digitValue base c).isSome = true :=
      Digits.forall_mem_toDigits (P := fun c => (digitValue base c).isSome = true) hbase
        (fun d hd => by rw [hdigit d hd]; rfl) n
    rw [List.takeWhile_append_of_pos hdigits]
    cases rest with
    | nil => simp
    | cons c rest => simp [hends c rfl]
  have hlength : (Nat.toDigits base n).length ≤ width :=
    (Nat.length_toDigits_le_iff hbase hwidth).mpr hn
  have hvalue : (Nat.toDigits base n).foldl (fun n c => n * base + (digitValue base c).getD 0) 0 =
      n :=
    Digits.foldl_toDigits (f := fun c => (digitValue base c).getD 0) hbase
      (fun d hd => by rw [hdigit d hd]; rfl) n
  have hfits : ¬ ((Nat.toDigits base n).isEmpty = true ∨
      width < (Nat.toDigits base n).length) := by
    simp [Nat.toDigits_ne_nil, hlength]
  rw [number, htaken, if_neg hfits, hvalue, List.drop_left]

theorem number_of_endsAt (hends : EndsAt base rest) : number base width rest = none := by
  have htaken : rest.takeWhile (fun c => (digitValue base c).isSome) = [] := by
    cases rest with
    | nil => rfl
    | cons c rest => simp [hends c rfl]
  rw [number, htaken]
  rfl

theorem digitValue_decimal : ∀ d < 10, digitValue 10 d.digitChar = some d := by
  decide

theorem digitValue_hexadecimal : ∀ d < 16, digitValue 16 d.digitChar = some d := by
  decide

/-- An octet is read back; only zero begins with a zero. -/
theorem octet_decimal (x : UInt8) (hends : EndsAt 10 rest) :
    octet (decimal x.toNat ++ rest) = some (x, rest) := by
  have hx : x.toNat < 256 := x.toNat_lt
  have hread : number 10 3 (decimal x.toNat ++ rest) = some (x.toNat, rest) :=
    number_toDigits (by decide) digitValue_decimal (by decide) (by omega) hends
  have hsound : ¬ (255 < x.toNat ∨ ((decimal x.toNat ++ rest).head? = some '0' ∧
      rest.length + 1 < (decimal x.toNat ++ rest).length)) := by
    rintro (hlarge | ⟨hzero, hlong⟩)
    · omega
    · rcases Nat.eq_zero_or_pos x.toNat with hx | hpos
      · rw [hx, List.length_append] at hlong
        have hone : (decimal 0).length = 1 := rfl
        omega
      · obtain ⟨d, hd, hlt, hhead⟩ := Digits.exists_head?_toDigits (b := 10) (by decide) hpos
        have hdifferent : ∀ d < 10, 0 < d → d.digitChar ≠ '0' := by decide
        rw [List.head?_append, decimal, hhead] at hzero
        exact hdifferent d hlt hd (Option.some.inj hzero)
  rw [octet, hread]
  dsimp only
  rw [if_neg hsound, UInt8.ofNat_toNat]

theorem octets_dotted (a b c d : UInt8) (hends : EndsAt 10 rest) :
    octets (dotted a b c d ++ rest) = some ((a, b, c, d), rest) := by
  have hpoint (s : List Char) : EndsAt 10 ('.' :: s) := endsAt_cons (by decide) s
  have htext : dotted a b c d ++ rest = decimal a.toNat ++ '.' :: (decimal b.toNat ++ '.' ::
      (decimal c.toNat ++ '.' :: (decimal d.toNat ++ rest))) := by
    simp [dotted, joined]
  rw [htext]
  refine Option.bind_eq_some_iff.mpr ⟨_, octet_decimal a (hpoint _), ?_⟩
  refine Option.bind_eq_some_iff.mpr ⟨_, rfl, ?_⟩
  refine Option.bind_eq_some_iff.mpr ⟨_, octet_decimal b (hpoint _), ?_⟩
  refine Option.bind_eq_some_iff.mpr ⟨_, rfl, ?_⟩
  refine Option.bind_eq_some_iff.mpr ⟨_, octet_decimal c (hpoint _), ?_⟩
  refine Option.bind_eq_some_iff.mpr ⟨_, rfl, ?_⟩
  exact Option.bind_eq_some_iff.mpr ⟨_, octet_decimal d hends, rfl⟩

theorem suffix_of_octet {s : List Char} {x : UInt8} (hread : octet s = some (x, rest)) :
    rest <:+ s := by
  unfold octet at hread
  split at hread
  · next n after hnumber =>
      split at hread
      · cases hread
      · cases hread
        unfold number at hnumber
        dsimp only at hnumber
        split at hnumber
        · cases hnumber
        · cases hnumber
          exact List.drop_suffix _ _
  · cases hread

/-- There are no octets where no point is. -/
theorem octets_of_not_mem {s : List Char} (hpoint : '.' ∉ s) : octets s = none := by
  rw [Option.eq_none_iff_forall_ne_some]
  intro found hread
  obtain ⟨⟨a, rest⟩, hfirst, hread⟩ := Option.bind_eq_some_iff.mp hread
  obtain ⟨after, hafter, -⟩ := Option.bind_eq_some_iff.mp hread
  cases rest with
  | nil => cases hafter
  | cons c rest =>
      obtain ⟨rfl, -⟩ := Option.ite_none_right_eq_some.mp hafter
      exact hpoint ((suffix_of_octet hfirst).subset List.mem_cons_self)

end Numbers

section Groups

variable {groups : List UInt16} {rest : List Char}

/-- That what follows groups does not go on with them. -/
def EndsGroups (rest : List Char) : Prop :=
  rest = [] ∨ ∃ tail, rest = ':' :: ':' :: tail

theorem groupsText_cons (g : UInt16) (groups : List UInt16) :
    groupsText (g :: groups) =
      hexadecimal g.toNat ++ groups.flatMap fun g => ':' :: hexadecimal g.toNat := by
  induction groups generalizing g with
  | nil => simp [groupsText, joined]
  | cons h groups ih =>
      have hjoined : groupsText (g :: h :: groups) =
          hexadecimal g.toNat ++ ':' :: groupsText (h :: groups) := by
        simp [groupsText, joined]
      rw [hjoined, ih, List.flatMap_cons, List.cons_append]

theorem not_mem_hexadecimal (n : Nat) : '.' ∉ hexadecimal n := by
  have hdigit : ∀ d < 16, d.digitChar ≠ '.' := by decide
  intro hmem
  exact Digits.forall_mem_toDigits (P := fun c => c ≠ '.') (by decide) hdigit n '.' hmem rfl

theorem endsAt_colon (base : Nat) (s : List Char) : EndsAt base (':' :: s) := by
  refine endsAt_cons ?_ s
  simp [digitValue]

/-- The group at the front of a text is read, unless an address of octets is. -/
theorem readGroups_of_number {first : Bool} {room n : Nat} {s after : List Char}
    (hfront : (if first then some s else afterChar ':' s) = some after) (hpoint : '.' ∉ after)
    (hnumber : number 16 4 after = some (n, rest)) :
    readGroups first (room + 1) s =
      (UInt16.ofNat n :: (readGroups false room rest).1, (readGroups false room rest).2) := by
  have hoctets : (if 0 < room then octets after else none) = none := by
    rw [octets_of_not_mem hpoint, ite_self]
  simp only [readGroups, hfront, hoctets, hnumber]

/-- Nothing is read where no group stands. -/
theorem readGroups_of_endsGroups {first : Bool} (room : Nat) (hends : EndsGroups rest)
    (hpoint : '.' ∉ rest) : readGroups first room rest = ([], rest, false) := by
  cases room with
  | zero => rfl
  | succ room =>
      have hnone {after : List Char} (hafter : EndsAt 16 after) (hpoint : '.' ∉ after) :
          (if 0 < room then octets after else none) = none ∧ number 16 4 after = none :=
        ⟨by rw [octets_of_not_mem hpoint, ite_self], number_of_endsAt hafter⟩
      rcases hends with rfl | ⟨tail, rfl⟩
      · cases first with
        | false => rfl
        | true =>
            obtain ⟨hoctets, hnumber⟩ := hnone (endsAt_nil 16) hpoint
            simp only [readGroups, if_true, hoctets, hnumber]
      · cases first with
        | false =>
            obtain ⟨hoctets, hnumber⟩ := hnone (endsAt_colon 16 tail)
              fun hmem => hpoint (List.mem_cons_of_mem _ hmem)
            have hfront : afterChar ':' (':' :: ':' :: tail) = some (':' :: tail) := rfl
            simp only [readGroups, Bool.false_eq_true, if_false, hfront, hoctets, hnumber]
        | true =>
            obtain ⟨hoctets, hnumber⟩ := hnone (endsAt_colon 16 (':' :: tail)) hpoint
            simp only [readGroups, if_true, hoctets, hnumber]

theorem endsAt_more (hends : EndsGroups rest) (groups : List UInt16) :
    EndsAt 16 ((groups.flatMap fun g => ':' :: hexadecimal g.toNat) ++ rest) := by
  cases groups with
  | nil =>
      rcases hends with rfl | ⟨tail, rfl⟩
      · exact endsAt_nil 16
      · exact endsAt_colon 16 _
  | cons g groups => exact endsAt_colon 16 _

theorem number_hexadecimal (g : UInt16) {after : List Char} (hends : EndsAt 16 after) :
    number 16 4 (hexadecimal g.toNat ++ after) = some (g.toNat, after) :=
  number_toDigits (by decide) digitValue_hexadecimal (by decide) g.toNat_lt hends

theorem not_mem_more (hpoint : '.' ∉ rest) (g : UInt16) (groups : List UInt16) :
    '.' ∉ hexadecimal g.toNat ++
      ((groups.flatMap fun g => ':' :: hexadecimal g.toNat) ++ rest) := by
  rw [List.mem_append, List.mem_append, List.mem_flatMap]
  rintro (hfirst | ⟨h, -, hmem⟩ | hrest)
  · exact not_mem_hexadecimal _ hfirst
  · rcases List.mem_cons.mp hmem with hcolon | hdigits
    · cases hcolon
    · exact not_mem_hexadecimal _ hdigits
  · exact hpoint hrest

/-- The groups after the first, each with a colon before it. -/
theorem readGroups_more (room : Nat) (hroom : groups.length ≤ room) (hends : EndsGroups rest)
    (hpoint : '.' ∉ rest) :
    readGroups false room ((groups.flatMap fun g => ':' :: hexadecimal g.toNat) ++ rest) =
      (groups, rest, false) := by
  induction groups generalizing room with
  | nil => exact readGroups_of_endsGroups room hends hpoint
  | cons g groups ih =>
      obtain ⟨room, rfl⟩ := Nat.exists_eq_add_one_of_ne_zero (Nat.ne_zero_of_lt hroom)
      rw [List.flatMap_cons, List.cons_append, List.cons_append, List.append_assoc]
      rw [readGroups_of_number rfl (not_mem_more hpoint g groups)
          (number_hexadecimal g (endsAt_more hends groups)),
        ih room (Nat.le_of_succ_le_succ hroom), UInt16.ofNat_toNat]

/-- Groups are read back, if there is room for them. -/
theorem readGroups_groupsText (room : Nat) (hroom : groups.length ≤ room) (hends : EndsGroups rest)
    (hpoint : '.' ∉ rest) :
    readGroups true room (groupsText groups ++ rest) = (groups, rest, false) := by
  cases groups with
  | nil => exact readGroups_of_endsGroups room hends hpoint
  | cons g groups =>
      obtain ⟨room, rfl⟩ := Nat.exists_eq_add_one_of_ne_zero (Nat.ne_zero_of_lt hroom)
      rw [groupsText_cons, List.append_assoc]
      rw [readGroups_of_number rfl (not_mem_more hpoint g groups)
          (number_hexadecimal g (endsAt_more hends groups)),
        readGroups_more room (Nat.le_of_succ_le_succ hroom) hends hpoint, UInt16.ofNat_toNat]

end Groups

section Runs

/-- That zeros stand from a place on. -/
def IsRun (groups : List UInt16) (run : Nat × Nat) : Prop :=
  (groups.drop run.1).take run.2 = List.replicate run.2 0

theorem isRun_zeroRun (groups : List UInt16) (start : Nat) :
    IsRun groups (start, zeroRun (groups.drop start)) := by
  unfold IsRun zeroRun
  generalize groups.drop start = rest
  have hzeros : ∀ g ∈ rest.takeWhile (· = 0), g = 0 := fun g hg => by
    simpa using List.all_eq_true.mp List.all_takeWhile g hg
  rw [← List.prefix_iff_eq_take.mp (List.takeWhile_prefix _)]
  exact List.eq_replicate_of_mem hzeros

/-- The longest run of zeros is one. -/
theorem isRun_longestRun {groups : List UInt16} {best : Nat × Nat} (hbest : IsRun groups best)
    (start : Nat) : IsRun groups (longestRun best start (groups.drop start)) := by
  generalize hrest : groups.drop start = rest
  induction rest generalizing best start with
  | nil => exact hbest
  | cons g rest ih =>
      refine ih ?_ (start + 1) (by rw [← List.drop_drop, hrest]; rfl)
      split
      · rw [← hrest]
        exact isRun_zeroRun groups start
      · exact hbest

variable {groups : List UInt16} {start n : Nat}

theorem IsRun.add_le_length (hrun : IsRun groups (start, n)) (hn : 0 < n) :
    start + n ≤ groups.length := by
  have hlength : ((groups.drop start).take n).length = n := by
    rw [show (groups.drop start).take n = List.replicate n 0 from hrun, List.length_replicate]
  rw [List.length_take, List.length_drop] at hlength
  omega

/-- Groups with a run of zeros are what is before it, the zeros and what is behind it. -/
theorem IsRun.append_eq (hrun : IsRun groups (start, n)) :
    groups.take start ++ List.replicate n 0 ++ groups.drop (start + n) = groups := by
  rw [← show (groups.drop start).take n = List.replicate n 0 from hrun, List.append_assoc,
    ← List.drop_drop, List.take_append_drop, List.take_append_drop]

end Runs

section Parsing

theorem not_mem_groupsText (groups : List UInt16) : '.' ∉ groupsText groups := by
  cases groups with
  | nil => exact List.not_mem_nil
  | cons g groups =>
      rw [groupsText_cons, ← List.append_nil (groups.flatMap _)]
      exact not_mem_more List.not_mem_nil g groups

/-- A text without points is no IPv4 address. -/
theorem parseChars_of_not_mem {s : List Char} (hpoint : '.' ∉ s) : parseChars s = parseV6 s := by
  rw [parseChars, octets_of_not_mem hpoint]

theorem octets_of_endsAt {s : List Char} (hends : EndsAt 10 s) : octets s = none := by
  have hfirst : octet s = none := by rw [octet, number_of_endsAt hends]
  rw [octets, hfirst]
  rfl

/-- Eight groups are read back. -/
theorem parseV6_groupsText {groups : List UInt16} (hgroups : groups.length = 8) :
    parseV6 (groupsText groups) = ofGroups groups := by
  have hread : readGroups true 8 (groupsText groups) = (groups, [], false) := by
    simpa using readGroups_groupsText 8 (Nat.le_of_eq hgroups) (.inl rfl) List.not_mem_nil
  simp only [parseV6, hread, hgroups, if_true, List.isEmpty_nil]

/-- Groups are read back where a run of at least two zeros is left out. -/
theorem parseV6_of_isRun {groups : List UInt16} {start n : Nat} (hgroups : groups.length = 8)
    (hrun : IsRun groups (start, n)) (hn : 1 < n) :
    parseV6 (groupsText (groups.take start) ++ ':' :: ':' ::
      groupsText (groups.drop (start + n))) = ofGroups groups := by
  have hle : start + n ≤ 8 := hgroups ▸ hrun.add_le_length (by omega)
  have hhead : (groups.take start).length = start := by
    rw [List.length_take, hgroups]
    omega
  have htail : (groups.drop (start + n)).length = 8 - (start + n) := by
    rw [List.length_drop, hgroups]
  have hpoint : '.' ∉ ':' :: ':' :: groupsText (groups.drop (start + n)) := by
    simpa using not_mem_groupsText _
  have hfirst : readGroups true 8 (groupsText (groups.take start) ++ ':' :: ':' ::
      groupsText (groups.drop (start + n))) =
        (groups.take start, ':' :: ':' :: groupsText (groups.drop (start + n)), false) :=
    readGroups_groupsText 8 (by omega) (.inr ⟨_, rfl⟩) hpoint
  have hsecond : readGroups true (7 - start) (groupsText (groups.drop (start + n))) =
      (groups.drop (start + n), [], false) := by
    simpa using readGroups_groupsText (7 - start) (by omega) (.inl rfl) List.not_mem_nil
  have hzeros : 8 - start - (8 - (start + n)) = n := by omega
  have hfew : ¬ start = 8 := by omega
  simp only [parseV6, hfirst, hhead, hfew, if_false, Bool.false_eq_true, hsecond,
    List.isEmpty_nil, if_true, htail, hzeros, hrun.append_eq]

theorem groupOfOctets_split (g : UInt16) :
    groupOfOctets (g >>> 8).toUInt8 g.toUInt8 = g := by
  have hlt : g.toNat < 65536 := g.toNat_lt
  have hhigh : (g >>> 8).toUInt8.toNat = g.toNat / 256 := by
    simp [Nat.shiftRight_eq_div_pow]
    omega
  have hlow : g.toUInt8.toNat = g.toNat % 256 := UInt16.toNat_toUInt8 g
  rw [groupOfOctets, hhigh, hlow, Nat.div_add_mod', UInt16.ofNat_toNat]

/-- An IPv6 address that stands for an IPv4 address is read back from the form of the latter. -/
theorem parseChars_mapped (g h : UInt16) :
    parseChars ("::ffff:".toList ++
      dotted (g >>> 8).toUInt8 g.toUInt8 (h >>> 8).toUInt8 h.toUInt8) =
        some (.v6 0 0 0 0 0 0xFFFF g h) := by
  have hoctets : octets (dotted (g >>> 8).toUInt8 g.toUInt8 (h >>> 8).toUInt8 h.toUInt8) =
      some (((g >>> 8).toUInt8, g.toUInt8, (h >>> 8).toUInt8, h.toUInt8), []) := by
    simpa using octets_dotted (g >>> 8).toUInt8 g.toUInt8 (h >>> 8).toUInt8 h.toUInt8
      (endsAt_nil 10)
  generalize dotted (g >>> 8).toUInt8 g.toUInt8 (h >>> 8).toUInt8 h.toUInt8 = address at hoctets ⊢
  have hlast : readGroups false 6 (':' :: address) = ([g, h], [], true) := by
    have hfront : afterChar ':' (':' :: address) = some address := rfl
    simp only [readGroups, Bool.false_eq_true, if_false, hfront, Nat.lt_add_one_iff, Nat.zero_le,
      if_true, hoctets, groupOfOctets_split]
  have hmark : number 16 4 ('f' :: 'f' :: 'f' :: 'f' :: ':' :: address) =
      some (0xFFFF, ':' :: address) :=
    number_hexadecimal 0xFFFF (endsAt_colon 16 address)
  have hnoOctets : octets ('f' :: 'f' :: 'f' :: 'f' :: ':' :: address) = none :=
    octets_of_endsAt (endsAt_cons (by decide) _)
  have htail : readGroups true 7 ('f' :: 'f' :: 'f' :: 'f' :: ':' :: address) =
      ([0xFFFF, g, h], [], true) := by
    rw [readGroups]
    simp only [if_true, hnoOctets, ite_self, hmark, hlast]
    rfl
  have hfront (base : Nat) : EndsAt base (':' :: ':' :: 'f' :: 'f' :: 'f' :: 'f' :: ':' :: address) :=
    endsAt_colon base _
  have hhead : readGroups true 8 (':' :: ':' :: 'f' :: 'f' :: 'f' :: 'f' :: ':' :: address) =
      ([], ':' :: ':' :: 'f' :: 'f' :: 'f' :: 'f' :: ':' :: address, false) := by
    rw [readGroups]
    simp only [if_true, octets_of_endsAt (hfront 10), ite_self, number_of_endsAt (hfront 16)]
  change parseChars (':' :: ':' :: 'f' :: 'f' :: 'f' :: 'f' :: ':' :: address) = _
  rw [parseChars, octets_of_endsAt (hfront 10)]
  simp only [parseV6, hhead, List.length_nil, Nat.sub_zero, htail]
  rfl

end Parsing

/-- An address is read back from its written form. -/
theorem parse_render (x : IpAddress) : parse x.render = some x := by
  rw [parse, render, String.toList_ofList]
  cases x with
  | v4 a b c d =>
      have hread : octets (dotted a b c d) = some ((a, b, c, d), []) := by
        simpa using octets_dotted a b c d (endsAt_nil 10)
      rw [renderChars, parseChars, hread]
  | v6 a b c d e f g h =>
      rw [renderChars]
      split
      · next hmapped =>
          obtain ⟨rfl, rfl, rfl, rfl, rfl, rfl⟩ := hmapped
          exact parseChars_mapped g h
      · have hrun : IsRun [a, b, c, d, e, f, g, h]
            (longestRun (0, 0) 0 [a, b, c, d, e, f, g, h]) :=
          isRun_longestRun (show IsRun [a, b, c, d, e, f, g, h] (0, 0) from rfl) 0
        dsimp only
        generalize longestRun (0, 0) 0 [a, b, c, d, e, f, g, h] = run at hrun ⊢
        obtain ⟨start, n⟩ := run
        split
        · next hn =>
            rw [parseChars_of_not_mem (by simp [not_mem_groupsText])]
            exact parseV6_of_isRun rfl hrun hn
        · rw [parseChars_of_not_mem (not_mem_groupsText _)]
          exact parseV6_groupsText rfl

end CertAuthority.IpAddress
