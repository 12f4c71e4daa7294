import CertAuthority.Json.Tree
import CertAuthority.Proofs.Decimal.Digits
import CertAuthority.Proofs.Json.Value
import Mathlib.Data.List.TakeDrop

/-!
# Numbers as text and back

Whatever number is written, its text is one literal: digits without zeros in front, and digits
behind the point and in the exponent.  An integer of 64 bits is read back from its literal; what
becomes of a double is for the floating-point arithmetic to say, but something is read.
-/

namespace CertAuthority

namespace Json.Tree

/-! ### The parts of a literal -/

/-- That what follows a number does not go on with it. -/
def Stops (rest : List Char) : Prop :=
  ∀ c, rest.head? = some c → isDigit c = false ∧ c ≠ '.' ∧ c ≠ 'e' ∧ c ≠ 'E'

theorem stops_nil : Stops [] := nofun

def IsDigits (ds : List Char) : Prop :=
  ds ≠ [] ∧ ∀ c ∈ ds, isDigit c = true

theorem span_append {ds rest : List Char} (hdigits : ∀ c ∈ ds, isDigit c = true)
    (hstops : ∀ c, rest.head? = some c → isDigit c = false) :
    (ds ++ rest).span isDigit = (ds, rest) := by
  rw [List.span_eq_takeWhile_dropWhile, List.takeWhile_append_of_pos hdigits,
    List.dropWhile_append_of_pos hdigits]
  cases rest with
  | nil => simp
  | cons c rest => simp [hstops c rfl]

theorem digits1_append {ds rest : List Char} (hdigits : IsDigits ds)
    (hstops : ∀ c, rest.head? = some c → isDigit c = false) :
    digits1 (ds ++ rest) = some (ds, rest) := by
  rw [digits1, span_append hdigits.2 hstops]
  cases ds with
  | nil => exact absurd rfl hdigits.1
  | cons d ds => rfl

/-- Whether there is a sign, and what is behind it. -/
def sign (s : List Char) : Bool × List Char :=
  match s with
  | '-' :: rest => (true, rest)
  | _ => (false, s)

/-- The digits behind a point, if there is one. -/
def fractionPart (s : List Char) : Option (Option (List Char) × List Char) :=
  match s with
  | '.' :: rest => (digits1 rest).map fun (ds, rest) => (some ds, rest)
  | _ => some (none, s)

/-- The sign and the digits of an exponent, if there is one. -/
def exponentPart (s : List Char) : Option (Option (Bool × List Char) × List Char) :=
  match s with
  | c :: rest =>
    if c = 'e' ∨ c = 'E' then
      let (negative, rest) := match rest with
        | '+' :: r => (false, r)
        | '-' :: r => (true, r)
        | _ => (false, rest)
      (digits1 rest).map fun (ds, rest) => (some (negative, ds), rest)
    else some (none, s)
  | [] => some (none, s)

/-- A literal behind its sign. -/
def unsigned (negative : Bool) (s : List Char) : Option (JsonNumber.Literal × List Char) :=
  (digits1 s).bind fun (whole, s) =>
    if 1 < whole.length ∧ whole.head? = some '0' then none
    else (fractionPart s).bind fun (fraction, s) =>
      (exponentPart s).bind fun (exponent, s) => some (⟨negative, whole, fraction, exponent⟩, s)

theorem fractionPart_bind {β : Type} (s : List Char)
    (f : Option (List Char) × List Char → Option β) :
    (fractionPart s).bind f = match s with
      | '.' :: rest => ((digits1 rest).map fun (ds, rest) => (some ds, rest)).bind f
      | _ => (some (none, s)).bind f := by
  unfold fractionPart
  split <;> rfl

theorem exponentPart_bind {β : Type} (s : List Char)
    (f : Option (Bool × List Char) × List Char → Option β) :
    (exponentPart s).bind f = match s with
      | c :: rest =>
        if c = 'e' ∨ c = 'E' then
          match match rest with
            | '+' :: r => (false, r)
            | '-' :: r => (true, r)
            | _ => (false, rest) with
          | (negative, rest) =>
            ((digits1 rest).map fun (ds, rest) => (some (negative, ds), rest)).bind f
        else (some (none, s)).bind f
      | [] => (some (none, s)).bind f := by
  unfold exponentPart
  split
  · split <;> rfl
  · rfl

/-- A literal is read part by part. -/
theorem literal_eq (s : List Char) : literal s = unsigned (sign s).1 (sign s).2 := by
  unfold literal
  split
  next negative rest hsign =>
    rw [show sign s = (negative, rest) from hsign, unsigned]
    refine congrArg _ (funext fun (whole, s) => ?_)
    simp only [fractionPart_bind, exponentPart_bind]
    rfl

end Json.Tree

namespace JsonNumber

open Json.Tree (Stops IsDigits literal isDigit digits1_append)

/-! ### Literals as text -/

def fractionText : Option (List Char) → List Char
  | none => []
  | some ds => '.' :: ds

def exponentText : Option (Bool × List Char) → List Char
  | none => []
  | some (negative, ds) => 'e' :: (if negative then '-' else '+') :: ds

namespace Literal

/-- A literal as it is written behind its sign. -/
def body (l : Literal) : List Char :=
  l.whole ++ (fractionText l.fraction ++ exponentText l.exponent)

def text (l : Literal) : List Char :=
  if l.negative then '-' :: l.body else l.body

/-- That a literal is made of digits, without zeros in front. -/
structure IsPlain (l : Literal) : Prop where
  whole : IsDigits l.whole
  lead : ¬ (1 < l.whole.length ∧ l.whole.head? = some '0')
  fraction : ∀ ds, l.fraction = some ds → IsDigits ds
  exponent : ∀ negative ds, l.exponent = some (negative, ds) → IsDigits ds

end Literal

section Parts

variable {rest : List Char}

theorem exponentPart_text {exponent : Option (Bool × List Char)}
    (hexponent : ∀ negative ds, exponent = some (negative, ds) → IsDigits ds)
    (hstops : Stops rest) :
    Json.Tree.exponentPart (exponentText exponent ++ rest) = some (exponent, rest) := by
  cases exponent with
  | none =>
      cases rest with
      | nil => rfl
      | cons c rest =>
          obtain ⟨-, -, hlower, hupper⟩ := hstops c rfl
          exact if_neg (not_or.mpr ⟨hlower, hupper⟩)
  | some found =>
      obtain ⟨negative, ds⟩ := found
      have hread := digits1_append (hexponent negative ds rfl) fun c hc => (hstops c hc).1
      cases negative <;>
        simp [Json.Tree.exponentPart, exponentText, hread]

theorem fractionPart_text {fraction : Option (List Char)}
    (hfraction : ∀ ds, fraction = some ds → IsDigits ds)
    (hstops : ∀ c, rest.head? = some c → isDigit c = false ∧ c ≠ '.') :
    Json.Tree.fractionPart (fractionText fraction ++ rest) = some (fraction, rest) := by
  cases fraction with
  | none =>
      change Json.Tree.fractionPart rest = some (none, rest)
      unfold Json.Tree.fractionPart
      split
      · exact absurd rfl (hstops '.' rfl).2
      · rfl
  | some ds =>
      have hread := digits1_append (hfraction ds rfl) fun c hc => (hstops c hc).1
      simp [Json.Tree.fractionPart, fractionText, hread]

/-- What follows the digits of an integer is a fraction, an exponent or the end. -/
theorem stops_exponentText (exponent : Option (Bool × List Char)) (hstops : Stops rest) :
    ∀ c, (exponentText exponent ++ rest).head? = some c → isDigit c = false ∧ c ≠ '.' := by
  cases exponent with
  | none => exact fun c hc => ⟨(hstops c hc).1, (hstops c hc).2.1⟩
  | some found =>
      rintro c ⟨⟩
      decide

theorem stops_fractionText (fraction : Option (List Char)) (exponent : Option (Bool × List Char))
    (hstops : Stops rest) :
    ∀ c, (fractionText fraction ++ (exponentText exponent ++ rest)).head? = some c →
      isDigit c = false := by
  cases fraction with
  | none => exact fun c hc => (stops_exponentText exponent hstops c hc).1
  | some ds =>
      rintro c ⟨⟩
      decide

/-- A literal is read back from its text, whatever follows it. -/
theorem literal_text {l : Literal} (hl : l.IsPlain) (hstops : Stops rest) :
    literal (l.text ++ rest) = some (l, rest) := by
  obtain ⟨negative, whole, fraction, exponent⟩ := l
  obtain ⟨hwhole, hlead, hfraction, hexponent⟩ := hl
  obtain ⟨d, ds, rfl⟩ := List.exists_cons_of_ne_nil hwhole.1
  have hminus : d ≠ '-' := by
    rintro rfl
    exact absurd (hwhole.2 '-' List.mem_cons_self) (by decide)
  have hsign : Json.Tree.sign ((Literal.text ⟨negative, d :: ds, fraction, exponent⟩) ++ rest) =
      (negative, (d :: ds) ++ (fractionText fraction ++ (exponentText exponent ++ rest))) := by
    cases negative with
    | true => simp [Literal.text, Literal.body, Json.Tree.sign]
    | false => simp [Literal.text, Literal.body, Json.Tree.sign, hminus]
  rw [Json.Tree.literal_eq, hsign, Json.Tree.unsigned,
    digits1_append hwhole (stops_fractionText fraction exponent hstops), Option.bind_some]
  dsimp only
  rw [if_neg hlead, fractionPart_text hfraction (stops_exponentText exponent hstops),
    Option.bind_some, exponentPart_text hexponent hstops, Option.bind_some]

end Parts

/-! ### Integers -/

/-- All digits are taken if the number fits. -/
theorem takeFitting_of_le {acc count : Nat} {ds : List Char}
    (hfits : ds.foldl (fun n c => n * 10 + digitValue c) acc ≤ maxUnsigned) :
    takeFitting acc count ds =
      (ds.foldl (fun n c => n * 10 + digitValue c) acc, count + ds.length, []) := by
  have hgrows (ds : List Char) (m : Nat) : m ≤ ds.foldl (fun n c => n * 10 + digitValue c) m := by
    induction ds generalizing m with
    | nil => exact Nat.le_refl m
    | cons d ds ih => exact Nat.le_trans (by omega) (ih (m * 10 + digitValue d))
  induction ds generalizing acc count with
  | nil => rfl
  | cons d ds ih =>
      rw [List.foldl_cons] at hfits
      rw [takeFitting, if_pos (Nat.le_trans (hgrows ds _) hfits), ih hfits, List.foldl_cons,
        List.length_cons, Nat.add_assoc, Nat.add_comm 1]

theorem digitValue_digitChar : ∀ d < 10, digitValue d.digitChar = d := by
  decide

theorem takeFitting_toDigits {n : Nat} (hn : n < 2 ^ 64) :
    takeFitting 0 0 (digits n) = (n, (digits n).length, []) := by
  have hvalue : (digits n).foldl (fun n c => n * 10 + digitValue c) 0 = n :=
    Digits.foldl_toDigits (by decide) digitValue_digitChar n
  have hfits : n ≤ maxUnsigned := Nat.le_sub_one_of_lt hn
  rw [takeFitting_of_le (by rwa [hvalue]), hvalue, Nat.zero_add]

theorem isDigits_digits (n : Nat) : IsDigits (digits n) :=
  ⟨Nat.toDigits_ne_nil, Digits.forall_mem_toDigits (by decide) (by decide) n⟩

theorem head?_digits {n : Nat} (hn : n ≠ 0) : (digits n).head? ≠ some '0' := by
  obtain ⟨d, hpos, hlt, hhead⟩ :=
    Digits.exists_head?_toDigits (b := 10) (by decide) (Nat.pos_of_ne_zero hn)
  have hdifferent : ∀ d < 10, 0 < d → d.digitChar ≠ '0' := by decide
  rw [digits, hhead]
  exact fun heq => hdifferent d hlt hpos (Option.some.inj heq)

theorem lead_digits (n : Nat) : ¬ (1 < (digits n).length ∧ (digits n).head? = some '0') := by
  rintro ⟨hlong, hhead⟩
  by_cases hn : n = 0
  · subst hn
    exact absurd hlong (by decide)
  · exact head?_digits hn hhead

/-- The literal that an integer is written as. -/
def integerLiteral (n : Int) : Literal :=
  ⟨n < 0, digits n.natAbs, none, none⟩

theorem isPlain_integerLiteral (n : Int) : (integerLiteral n).IsPlain :=
  ⟨isDigits_digits _, lead_digits _, nofun, nofun⟩

theorem render_int (n : Int) : (int n).render = (integerLiteral n).text := by
  simp only [render, Literal.text, Literal.body, integerLiteral, fractionText, exponentText,
    List.append_nil, decide_eq_true_eq]

/-- An integer of 64 bits is read back from its literal. -/
theorem ofLiteral_integerLiteral {n : Int} (hfits : (int n).Fits) :
    ofLiteral (integerLiteral n) = some (.int n) := by
  obtain ⟨hlow, hhigh⟩ := hfits
  have htaken := takeFitting_toDigits (n := n.natAbs) (by omega)
  simp only [ofLiteral, integerLiteral, htaken, List.isEmpty_nil, Option.isNone_none, and_self,
    if_true]
  by_cases hnegative : n < 0
  · have hsome : ¬ (n.natAbs = 0 ∨ Nat.pow 2 63 < n.natAbs) := by
      rw [show Nat.pow 2 63 = 2 ^ 63 from rfl]
      omega
    have hsign : -(n.natAbs : Int) = n := by omega
    simp only [hnegative, decide_true, Bool.not_true, Bool.false_eq_true, if_false, if_neg hsome,
      hsign]
  · have hsign : (n.natAbs : Int) = n := by omega
    simp only [hnegative, decide_false, Bool.not_false, if_true, hsign]

end JsonNumber

/-! ### Doubles -/

namespace Decimal

/-- A point of a grid that stands for a double is not zero. -/
theorem gridPoint?_ne_zero {b : Binary} {e : Int} {n : Nat} (hpoint : gridPoint? b e = some n) :
    n ≠ 0 := by
  unfold gridPoint? at hpoint
  dsimp only at hpoint
  split at hpoint
  · next hboth =>
      split at hpoint
      · exact Option.some.inj hpoint ▸ hboth.1.1
      split at hpoint
      · exact Option.some.inj hpoint ▸ Nat.succ_ne_zero _
      split at hpoint
      · exact Option.some.inj hpoint ▸ hboth.1.1
      · exact Option.some.inj hpoint ▸ Nat.succ_ne_zero _
  split at hpoint
  · next hlow => exact Option.some.inj hpoint ▸ hlow.1
  split at hpoint
  · exact Option.some.inj hpoint ▸ Nat.succ_ne_zero _
  · cases hpoint

theorem digits_searchGrid_ne_zero {b : Binary} (hb : b.mantissa ≠ 0) (lead : Int)
    (fuel places : Nat) : (searchGrid b lead fuel places).digits ≠ 0 := by
  induction fuel generalizing places with
  | zero => exact hb
  | succ fuel ih =>
      unfold searchGrid
      dsimp only
      split
      · next hpoint => exact gridPoint?_ne_zero hpoint
      · exact ih (places + 1)

theorem digits_normalize_ne_zero {s : Scientific} (hs : s.digits ≠ 0) (fuel : Nat) :
    (s.normalize fuel).digits ≠ 0 := by
  induction fuel generalizing s with
  | zero => exact hs
  | succ fuel ih =>
      unfold Scientific.normalize
      split
      · next hten => exact ih (by dsimp only; omega)
      · exact hs

/-- The shortest decimal of a double that is not zero is not zero. -/
theorem digits_shortest_ne_zero {b : Binary} (hb : b.mantissa ≠ 0) : (shortest b).digits ≠ 0 :=
  digits_normalize_ne_zero (digits_searchGrid_ne_zero hb _ _ _) _

theorem mantissa_ofBits_ne_zero {bits : UInt64} (hbits : bits.toNat ≠ 0)
    (hsign : bits.toNat < 2 ^ 63) : (Binary.ofBits bits).mantissa ≠ 0 := by
  unfold Binary.ofBits
  simp only [Nat.pow_eq]
  split
  · dsimp only
    omega
  · dsimp only
    omega

end Decimal

namespace JsonNumber

open Json.Tree (Stops IsDigits literal isDigit)

theorem isDigits_zero : IsDigits ['0'] :=
  ⟨List.cons_ne_nil _ _, List.forall_mem_singleton.mpr rfl⟩

theorem isDigits_zeros_append {ds : List Char} (hds : IsDigits ds) (count : Nat) :
    IsDigits (List.replicate count '0' ++ ds) := by
  refine ⟨by simp [hds.1], fun c hc => ?_⟩
  rcases List.mem_append.mp hc with hzero | hdigit
  · rw [List.eq_of_mem_replicate hzero]
    rfl
  · exact hds.2 c hdigit

theorem isDigits_append_zeros {ds : List Char} (hds : IsDigits ds) (count : Nat) :
    IsDigits (ds ++ List.replicate count '0') := by
  refine ⟨by simp [hds.1], fun c hc => ?_⟩
  rcases List.mem_append.mp hc with hdigit | hzero
  · exact hds.2 c hdigit
  · rw [List.eq_of_mem_replicate hzero]
    rfl

/-- What is written of a decimal number is the body of a literal. -/
theorem exists_renderScientific {s : Decimal.Scientific} (hs : s.digits ≠ 0) :
    ∃ l : Literal, l.IsPlain ∧ l.body = renderScientific s := by
  obtain ⟨d, ds, hdigits⟩ := List.exists_cons_of_ne_nil (isDigits_digits s.digits).1
  have hplain : IsDigits (d :: ds) := hdigits ▸ isDigits_digits s.digits
  have hlead : d ≠ '0' := by
    have hhead := head?_digits hs
    rw [hdigits] at hhead
    exact fun heq => hhead (congrArg some heq)
  unfold renderScientific
  dsimp only
  rw [hdigits]
  split
  · split
    · -- an integer, and a zero behind the point
      refine ⟨⟨false, d :: ds ++ List.replicate s.exponent.toNat '0', some ['0'], none⟩,
        ⟨isDigits_append_zeros hplain _, by simp [hlead], ?_, nofun⟩, ?_⟩
      · rintro _ ⟨⟩
        exact isDigits_zero
      · simp [Literal.body, fractionText, exponentText]
    · next hnegative =>
      split
      · -- the point stands among the digits
        next hwhole =>
          obtain ⟨count, hcount⟩ : ∃ count,
              (s.exponent + ((d :: ds).length : Nat) - 1 + 1).toNat = count + 1 :=
            Nat.exists_eq_succ_of_ne_zero (by omega)
          have hrest : ds.drop count ≠ [] := by
            rw [ne_eq, List.drop_eq_nil_iff]
            rw [List.length_cons] at hcount
            omega
          refine ⟨⟨false, d :: ds.take count, some (ds.drop count), none⟩,
            ⟨⟨by simp, fun c hc => ?_⟩, by simp [hlead], ?_, nofun⟩, ?_⟩
          · exact hplain.2 c (List.cons_subset_cons d (List.take_subset count ds) hc)
          · rintro _ ⟨⟩
            exact ⟨hrest, fun c hc =>
              hplain.2 c (List.mem_cons_of_mem d (List.drop_subset count ds hc))⟩
          · rw [hcount]
            simp [Literal.body, fractionText, exponentText]
      · -- the point stands in front of the digits
        next hfraction =>
          refine ⟨⟨false, ['0'], some (List.replicate
            (-(s.exponent + ((d :: ds).length : Nat) - 1) - 1).toNat '0' ++ d :: ds), none⟩,
            ⟨isDigits_zero, by simp, ?_, nofun⟩, ?_⟩
          · rintro _ ⟨⟩
            exact isDigits_zeros_append hplain _
          · simp [Literal.body, fractionText, exponentText]
  · -- an exponent stands behind the digits
    generalize s.exponent + ((d :: ds).length : Nat) - 1 = lead
    refine ⟨⟨false, [d], if ds = [] then none else some ds,
      some (decide (lead < 0), digits lead.natAbs)⟩, ⟨⟨by simp, ?_⟩, by simp, ?_, ?_⟩, ?_⟩
    · exact fun c hc => hplain.2 c (List.mem_cons.mpr (.inl (List.mem_singleton.mp hc)))
    · intro found hfound
      split at hfound
      · cases hfound
      · next hne =>
          cases hfound
          exact ⟨hne, fun c hc => hplain.2 c (List.mem_cons_of_mem d hc)⟩
    · rintro _ _ ⟨⟩
      exact isDigits_digits _
    · cases ds <;> simp [Literal.body, fractionText, exponentText]

/-- Every number is written as a literal. -/
theorem exists_render (n : JsonNumber) : ∃ l : Literal, l.IsPlain ∧ n.render = l.text := by
  cases n with
  | int n => exact ⟨integerLiteral n, isPlain_integerLiteral n, render_int n⟩
  | float bits =>
      obtain ⟨l, hl, hbody⟩ : ∃ l : Literal, l.IsPlain ∧ l.body =
          if bits.toNat % Nat.pow 2 63 = 0 then ['0', '.', '0']
          else renderScientific (Decimal.shortest
            (Decimal.Binary.ofBits (UInt64.ofNat (bits.toNat % Nat.pow 2 63)))) := by
        split
        · refine ⟨⟨false, ['0'], some ['0'], none⟩, ⟨isDigits_zero, by simp, ?_, nofun⟩, rfl⟩
          rintro _ ⟨⟩
          exact isDigits_zero
        · next hmagnitude =>
            have hlt := Nat.mod_lt bits.toNat (show 0 < Nat.pow 2 63 by decide)
            have hsame : (UInt64.ofNat (bits.toNat % Nat.pow 2 63)).toNat =
                bits.toNat % Nat.pow 2 63 := by
              rw [UInt64.toNat_ofNat']
              exact Nat.mod_eq_of_lt (Nat.lt_trans hlt (by decide))
            refine exists_renderScientific (Decimal.digits_shortest_ne_zero
              (Decimal.mantissa_ofBits_ne_zero ?_ ?_))
            · rwa [hsame]
            · rw [hsame]
              exact hlt
      refine ⟨{ l with negative := Nat.pow 2 63 ≤ bits.toNat },
        ⟨hl.whole, hl.lead, hl.fraction, hl.exponent⟩, ?_⟩
      rw [render, renderFloat, Literal.text]
      simp only [decide_eq_true_eq]
      rw [show Literal.body { l with negative := decide (Nat.pow 2 63 ≤ bits.toNat) } = l.body
        from rfl, hbody]

/-- What is read of a number that was written. -/
def retold (n : JsonNumber) : Option JsonNumber :=
  (literal n.render).bind fun (l, _) => ofLiteral l

/-- A number is read from its text, whatever follows it. -/
theorem exists_literal_render (n : JsonNumber) :
    ∃ l, n.retold = ofLiteral l ∧
      ∀ rest, Stops rest → literal (n.render ++ rest) = some (l, rest) := by
  obtain ⟨l, hl, hrender⟩ := exists_render n
  have hread (rest : List Char) (hstops : Stops rest) :
      literal (n.render ++ rest) = some (l, rest) := by
    rw [hrender, literal_text hl hstops]
  refine ⟨l, ?_, hread⟩
  rw [retold, ← List.append_nil n.render, hread [] Json.Tree.stops_nil, Option.bind_some]

/-- An integer of 64 bits is read back. -/
theorem retold_int {n : Int} (hfits : (int n).Fits) : (int n).retold = some (int n) := by
  rw [retold, render_int, ← List.append_nil (integerLiteral n).text,
    literal_text (isPlain_integerLiteral n) Json.Tree.stops_nil, Option.bind_some]
  exact ofLiteral_integerLiteral hfits

end JsonNumber

end CertAuthority
