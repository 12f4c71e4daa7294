import CertAuthority.Json.Printer
import CertAuthority.Proofs.Json.Number

/-!
# Values as text and back

An indented text is parsed to the tree of the value that was written, with each number as it is read
from its own text.  If all numbers are integers of 64 bits, that is the tree of the value itself.
-/

namespace CertAuthority

namespace Json

namespace Tree

/-! ### Strings -/

theorem hexValue_hexDigit {n : Nat} (hn : n < 16) : hexValue (hexDigit n) = some n := by
  revert n
  decide

theorem pieces_short {c e : Char} (he : shortEscape e = some c) (hu : e ≠ 'u') (rest : List Char) :
    pieces ('\\' :: e :: rest) = (pieces rest).map fun (tail, rest) => (.char c :: tail, rest) := by
  rw [pieces.eq_def]
  split
  · next heq => cases heq
  · next heq => cases heq
  · next heq =>
      injection heq with _ htail
      injection htail with hhead
      exact absurd hhead hu
  · next heq =>
      injection heq with _ htail
      injection htail with hhead htail
      subst hhead htail
      rw [he]
      cases pieces rest <;> rfl
  · next hnot heq =>
      injection heq with hhead htail
      subst hhead htail
      exact absurd rfl (hnot e rest rfl)

theorem pieces_unicode {c : Char} (hc : c.toNat < 0x20) (rest : List Char) :
    pieces ('\\' :: 'u' :: '0' :: '0' :: hexDigit (c.toNat / 16) :: hexDigit (c.toNat % 16) :: rest) =
      (pieces rest).map fun (tail, rest) => (.char c :: tail, rest) := by
  have hfour : hexFour '0' '0' (hexDigit (c.toNat / 16)) (hexDigit (c.toNat % 16)) =
      some c.toNat := by
    have hzero : hexValue '0' = some 0 := by decide
    have hcode : ((0 * 16 + 0) * 16 + c.toNat / 16) * 16 + c.toNat % 16 = c.toNat := by omega
    simp only [hexFour, hzero, hexValue_hexDigit (show c.toNat / 16 < 16 by omega),
      hexValue_hexDigit (Nat.mod_lt _ (by decide : 0 < 16)), bind, Option.bind_some, hcode, pure]
  have hplain : ¬ (0xD800 ≤ c.toNat ∧ c.toNat ≤ 0xDFFF) := by omega
  rw [pieces, hfour]
  cases pieces rest with
  | none => rfl
  | some found => simp [bind, pure, if_neg hplain, Char.ofNat_toNat]

theorem pieces_plain {c : Char} (hquote : c ≠ '"') (hslash : c ≠ '\\') (hc : ¬ c.toNat < 0x20)
    (rest : List Char) :
    pieces (c :: rest) = (pieces rest).map fun (tail, rest) => (.char c :: tail, rest) := by
  rw [pieces.eq_def]
  split
  · next heq => cases heq
  · next heq => cases heq; exact absurd rfl hquote
  · next heq => cases heq; exact absurd rfl hslash
  · next heq => cases heq; exact absurd rfl hslash
  · next heq =>
      cases heq
      rw [if_neg (by simp [hc, hslash])]
      cases pieces rest <;> rfl

/-- A character is read back from its escape. -/
theorem pieces_escapeChar (c : Char) (rest : List Char) :
    pieces (escapeChar c ++ rest) =
      (pieces rest).map fun (tail, rest) => (.char c :: tail, rest) := by
  unfold escapeChar
  split
  · next h => subst h; exact pieces_short rfl (by decide) rest
  split
  · next h => subst h; exact pieces_short rfl (by decide) rest
  next hquote hslash =>
  split
  · next hcontrol =>
      split
      · next h => subst h; exact pieces_short rfl (by decide) rest
      split
      · next h => subst h; exact pieces_short rfl (by decide) rest
      split
      · next h => subst h; exact pieces_short rfl (by decide) rest
      split
      · next h => subst h; exact pieces_short rfl (by decide) rest
      split
      · next h => subst h; exact pieces_short rfl (by decide) rest
      exact pieces_unicode hcontrol rest
  · next hcontrol => exact pieces_plain hquote hslash hcontrol rest

theorem pieces_flatMap (cs rest : List Char) :
    pieces (cs.flatMap escapeChar ++ '"' :: rest) = some (cs.map .char, rest) := by
  induction cs with
  | nil => rfl
  | cons c cs ih =>
      rw [List.flatMap_cons, List.append_assoc, pieces_escapeChar, ih]
      rfl

theorem joinPieces_map (cs : List Char) : joinPieces (cs.map .char) = some cs := by
  induction cs with
  | nil => rfl
  | cons c cs ih => rw [List.map_cons, joinPieces, ih, Option.map_some]

/-- A quoted string is read back, whatever follows it. -/
theorem stringBody_quoted (s : String) (rest : List Char) :
    stringBody (s.toList.flatMap escapeChar ++ '"' :: rest) = some (some s, rest) := by
  rw [stringBody, pieces_flatMap, Option.map_some]
  change some ((joinPieces _).map String.ofList, rest) = _
  rw [joinPieces_map, Option.map_some, String.ofList_toList]

end Tree

/-- What is asked of a value so that its text is read back: all integers have 64 bits, and there
are no doubles. -/
def Writes (n : JsonNumber) : Prop :=
  n.Fits ∧ n.IsInteger

namespace Tree

/-! ### Values -/

mutual

/-- The tree that the text of a value is parsed to. -/
def retold : Json → Tree
  | .null => .null
  | .bool b => .bool b
  | .number n => .number n.retold
  | .string s => .string (some s)
  | .array items => .array (retoldItems items)
  | .object fields => .object (retoldFields fields)

def retoldItems : List Json → List Tree
  | [] => []
  | v :: rest => retold v :: retoldItems rest

def retoldFields : List (String × Json) → List (Option String × Tree)
  | [] => []
  | (k, v) :: rest => (some k, retold v) :: retoldFields rest

end

section Integers

variable {keys : List String → Prop}

mutual

/-- If all numbers are integers of 64 bits, nothing is lost in the text. -/
theorem retold_eq_ofJson : {v : Json} → v.All Writes keys → retold v = ofJson v
  | .null, _ => rfl
  | .bool _, _ => rfl
  | .string _, _ => rfl
  | .number (.int _), hn => congrArg Tree.number (JsonNumber.retold_int hn.1)
  | .number (.float _), hn => hn.2.elim
  | .array _, hitems => congrArg Tree.array (retoldItems_eq_itemsOfJson hitems)
  | .object _, hfields => congrArg Tree.object (retoldFields_eq_fieldsOfJson hfields.2)

theorem retoldItems_eq_itemsOfJson : {items : List Json} → Json.AllItems Writes keys items →
    retoldItems items = itemsOfJson items
  | [], _ => rfl
  | _ :: _, hitems =>
    congrArg₂ List.cons (retold_eq_ofJson hitems.1) (retoldItems_eq_itemsOfJson hitems.2)

theorem retoldFields_eq_fieldsOfJson : {fields : List (String × Json)} →
    Json.AllFields Writes keys fields → retoldFields fields = fieldsOfJson fields
  | [], _ => rfl
  | _ :: _, hfields =>
    congrArg₂ List.cons (congrArg (Prod.mk _) (retold_eq_ofJson hfields.1))
      (retoldFields_eq_fieldsOfJson hfields.2)

end

end Integers

theorem skipSpace_newline (level : Nat) (s : List Char) :
    skipSpace (newline level ++ s) = skipSpace s := by
  apply List.dropWhile_append_of_pos
  intro c hc
  rcases List.mem_cons.mp hc with rfl | hc
  · rfl
  · rw [List.eq_of_mem_replicate hc]
    rfl

theorem skipSpace_cons {c : Char} (hc : isSpace c = false) (s : List Char) :
    skipSpace (c :: s) = c :: s := by
  simp [skipSpace, hc]

theorem skipSpace_blank (s : List Char) : skipSpace (' ' :: s) = skipSpace s := rfl

/-- Blanks in front of a value make no difference. -/
theorem value_congr {s t : List Char} (fuel : Nat) (hsame : skipSpace s = skipSpace t) :
    value fuel s = value fuel t := by
  cases fuel with
  | zero => rfl
  | succ fuel => simp only [value, hsame]

/-- How a value begins: not with a blank, nor with a bracket that closes. -/
def Begins (s : List Char) : Prop :=
  ∃ c rest, s = c :: rest ∧ isSpace c = false ∧ c ≠ ']' ∧ c ≠ '\x7d'

theorem Begins.skipSpace {s : List Char} (hs : Begins s) : skipSpace s = s := by
  obtain ⟨c, rest, rfl, hc, -⟩ := hs
  exact skipSpace_cons hc rest

theorem begins_of_isDigit {c : Char} (hc : isDigit c = true) (rest : List Char) :
    Begins (c :: rest) := by
  refine ⟨c, rest, rfl, ?_, ?_, ?_⟩
  · cases hspace : isSpace c with
    | false => rfl
    | true =>
        simp only [isSpace, Bool.or_eq_true, decide_eq_true_eq] at hspace
        rcases hspace with ((rfl | rfl) | rfl) | rfl <;> cases hc
  · rintro rfl
    cases hc
  · rintro rfl
    cases hc

/-- How a number begins. -/
theorem exists_render_eq (n : JsonNumber) :
    ∃ c cs, n.render = c :: cs ∧ (isDigit c = true ∨ c = '-') := by
  obtain ⟨l, hl, hrender⟩ := n.exists_render
  obtain ⟨d, ds, hds⟩ := List.exists_cons_of_ne_nil hl.whole.1
  have hdigit : isDigit d = true := hl.whole.2 d (hds ▸ List.mem_cons_self)
  rw [hrender, JsonNumber.Literal.text, JsonNumber.Literal.body, hds]
  split
  · exact ⟨_, _, rfl, .inr rfl⟩
  · exact ⟨_, _, rfl, .inl hdigit⟩

theorem begins_pretty (level : Nat) (v : Json) (rest : List Char) :
    Begins (pretty level v ++ rest) := by
  have hother {c : Char} {cs : List Char} (hc : isSpace c = false) (hbracket : c ≠ ']')
      (hbrace : c ≠ '\x7d') : Begins (c :: cs ++ rest) :=
    ⟨c, cs ++ rest, rfl, hc, hbracket, hbrace⟩
  cases v with
  | null => exact hother rfl (by decide) (by decide)
  | bool b => cases b <;> exact hother rfl (by decide) (by decide)
  | string s => exact hother rfl (by decide) (by decide)
  | array items => cases items <;> exact hother rfl (by decide) (by decide)
  | object fields => cases fields <;> exact hother rfl (by decide) (by decide)
  | number n =>
      obtain ⟨c, cs, hrender, hdigit | rfl⟩ := exists_render_eq n
      · rw [pretty, hrender]
        exact begins_of_isDigit hdigit (cs ++ rest)
      · rw [pretty, hrender]
        exact hother rfl (by decide) (by decide)

section Steps

variable {fuel : Nat} {rest : List Char}

theorem value_number {c : Char} {cs : List Char} {l : JsonNumber.Literal}
    (hc : isDigit c = true ∨ c = '-') (hread : literal (c :: cs) = some (l, rest)) :
    value (fuel + 1) (c :: cs) = some (.number (JsonNumber.ofLiteral l), rest) := by
  have hskip : skipSpace (c :: cs) = c :: cs := by
    rcases hc with hdigit | rfl
    · exact (begins_of_isDigit hdigit cs).skipSpace
    · exact skipSpace_cons rfl cs
  have hother {d : Char} (hd : isDigit d = false) (hminus : d ≠ '-') : c ≠ d := by
    rintro rfl
    rcases hc with hdigit | hc
    · rw [hd] at hdigit
      cases hdigit
    · exact hminus hc
  rw [value, hskip]
  split
  · next heq => cases heq; exact absurd rfl (hother rfl (by decide))
  · next heq => cases heq; exact absurd rfl (hother rfl (by decide))
  · next heq => cases heq; exact absurd rfl (hother rfl (by decide))
  · next heq => cases heq; exact absurd rfl (hother rfl (by decide))
  · next heq => cases heq; exact absurd rfl (hother rfl (by decide))
  · next heq => cases heq; exact absurd rfl (hother rfl (by decide))
  · rw [hread, Option.map_some]

theorem quoted_append (s : String) :
    quoted s ++ rest = '"' :: (s.toList.flatMap escapeChar ++ '"' :: rest) := by
  simp [quoted]

theorem value_string (s : String) :
    value (fuel + 1) (quoted s ++ rest) = some (.string (some s), rest) := by
  rw [quoted_append, value, skipSpace_cons rfl]
  simp only [stringBody_quoted, Option.map_some]

/-- An array whose first element does not begin with a bracket that closes. -/
theorem value_array {s : List Char} {found : List Tree} (hbegins : Begins (skipSpace s))
    (hitems : items fuel (skipSpace s) = some (found, rest)) :
    value (fuel + 1) ('[' :: s) = some (.array found, rest) := by
  rw [value, skipSpace_cons rfl]
  obtain ⟨c, cs, hs, -, hbracket, -⟩ := hbegins
  rw [hs] at hitems
  simp only [hs]
  split
  · next heq => cases heq; exact absurd rfl hbracket
  · rw [hitems, Option.map_some]

theorem value_object {s : List Char} {found : List (Option String × Tree)}
    (hbegins : Begins (skipSpace s)) (hfields : fields fuel (skipSpace s) = some (found, rest)) :
    value (fuel + 1) ('\x7b' :: s) = some (.object found, rest) := by
  rw [value, skipSpace_cons rfl]
  obtain ⟨c, cs, hs, -, -, hbrace⟩ := hbegins
  rw [hs] at hfields
  simp only [hs]
  split
  · next heq => cases heq; exact absurd rfl hbrace
  · rw [hfields, Option.map_some]

theorem items_last {s after : List Char} {v : Tree} (hvalue : value fuel s = some (v, after))
    (hafter : skipSpace after = ']' :: rest) : items (fuel + 1) s = some ([v], rest) := by
  simp only [items, hvalue, hafter]

theorem items_more {s after more : List Char} {v : Tree} {found : List Tree}
    (hvalue : value fuel s = some (v, after)) (hafter : skipSpace after = ',' :: more)
    (hmore : items fuel more = some (found, rest)) :
    items (fuel + 1) s = some (v :: found, rest) := by
  simp only [items, hvalue, hafter, hmore, Option.map_some]

theorem fields_last {s content after : List Char} {key : String} {v : Tree}
    (hs : skipSpace s = skipSpace (quoted key ++ ':' :: content))
    (hvalue : value fuel content = some (v, after)) (hafter : skipSpace after = '\x7d' :: rest) :
    fields (fuel + 1) s = some ([(some key, v)], rest) := by
  rw [quoted_append, skipSpace_cons rfl] at hs
  simp only [fields, hs, stringBody_quoted, skipSpace_cons (c := ':') rfl, hvalue, hafter]

theorem fields_more {s content after more : List Char} {key : String} {v : Tree}
    {found : List (Option String × Tree)}
    (hs : skipSpace s = skipSpace (quoted key ++ ':' :: content))
    (hvalue : value fuel content = some (v, after)) (hafter : skipSpace after = ',' :: more)
    (hmore : fields fuel more = some (found, rest)) :
    fields (fuel + 1) s = some ((some key, v) :: found, rest) := by
  rw [quoted_append, skipSpace_cons rfl] at hs
  simp only [fields, hs, stringBody_quoted, skipSpace_cons (c := ':') rfl, hvalue, hafter, hmore,
    Option.map_some]

end Steps

/-- What follows a value in an indented text does not go on with a number. -/
theorem stops_newline (level : Nat) (s : List Char) : Stops (newline level ++ s) := by
  rintro c ⟨⟩
  decide

theorem stops_comma (s : List Char) : Stops (',' :: s) := by
  rintro c ⟨⟩
  decide

theorem stops_prettyItems (level : Nat) (items : List Json) (rest : List Char) :
    Stops (prettyItems level items ++ rest) := by
  cases items with
  | nil => exact stops_newline level ([']'] ++ rest)
  | cons v items => exact stops_comma _

theorem stops_prettyFields (level : Nat) (fields : List (String × Json)) (rest : List Char) :
    Stops (prettyFields level fields ++ rest) := by
  cases fields with
  | nil => exact stops_newline level (['\x7d'] ++ rest)
  | cons field fields => exact stops_comma _

section Values

mutual

/-- The text of a value is parsed to the tree of what it tells, whatever follows it. -/
theorem value_pretty (fuel level : Nat) {rest : List Char} : (v : Json) → Stops rest →
    (pretty level v).length < fuel → value fuel (pretty level v ++ rest) = some (retold v, rest)
  | .null, _, hfuel => by
      obtain ⟨fuel, rfl⟩ := Nat.exists_eq_add_one_of_ne_zero (Nat.ne_zero_of_lt hfuel)
      rfl
  | .bool true, _, hfuel => by
      obtain ⟨fuel, rfl⟩ := Nat.exists_eq_add_one_of_ne_zero (Nat.ne_zero_of_lt hfuel)
      rfl
  | .bool false, _, hfuel => by
      obtain ⟨fuel, rfl⟩ := Nat.exists_eq_add_one_of_ne_zero (Nat.ne_zero_of_lt hfuel)
      rfl
  | .string s, _, hfuel => by
      obtain ⟨fuel, rfl⟩ := Nat.exists_eq_add_one_of_ne_zero (Nat.ne_zero_of_lt hfuel)
      exact value_string s
  | .number n, hstops, hfuel => by
      obtain ⟨fuel, rfl⟩ := Nat.exists_eq_add_one_of_ne_zero (Nat.ne_zero_of_lt hfuel)
      obtain ⟨c, cs, hrender, hc⟩ := exists_render_eq n
      obtain ⟨l, hretold, hread⟩ := n.exists_literal_render
      replace hread := hread rest hstops
      rw [hrender] at hread
      rw [pretty, hrender]
      exact (value_number hc hread).trans (by rw [retold, hretold])
  | .array [], _, hfuel => by
      obtain ⟨fuel, rfl⟩ := Nat.exists_eq_add_one_of_ne_zero (Nat.ne_zero_of_lt hfuel)
      rfl
  | .array (v :: items), hstops, hfuel => by
      obtain ⟨fuel, rfl⟩ := Nat.exists_eq_add_one_of_ne_zero (Nat.ne_zero_of_lt hfuel)
      have htext : pretty level (.array (v :: items)) ++ rest = '[' :: (newline (level + 1) ++
          (pretty (level + 1) v ++ (prettyItems level items ++ rest))) := by
        simp [pretty]
      have hbegins := begins_pretty (level + 1) v (prettyItems level items ++ rest)
      have hskip := (skipSpace_newline (level + 1) _).trans hbegins.skipSpace
      rw [htext]
      refine value_array (by rwa [hskip]) ?_
      rw [hskip]
      refine items_pretty fuel level v items rfl ?_
      simp only [pretty, List.length_append, List.length_cons] at hfuel
      omega
  | .object [], _, hfuel => by
      obtain ⟨fuel, rfl⟩ := Nat.exists_eq_add_one_of_ne_zero (Nat.ne_zero_of_lt hfuel)
      rfl
  | .object ((key, v) :: fields), hstops, hfuel => by
      obtain ⟨fuel, rfl⟩ := Nat.exists_eq_add_one_of_ne_zero (Nat.ne_zero_of_lt hfuel)
      have htext : pretty level (.object ((key, v) :: fields)) ++ rest = '\x7b' ::
          (newline (level + 1) ++ (quoted key ++ ':' :: ' ' :: (pretty (level + 1) v ++
            (prettyFields level fields ++ rest)))) := by
        simp [pretty]
      have hbegins : Begins (quoted key ++ ':' :: ' ' :: (pretty (level + 1) v ++
          (prettyFields level fields ++ rest))) :=
        ⟨_, _, quoted_append key, rfl, by decide, by decide⟩
      have hskip := (skipSpace_newline (level + 1) _).trans hbegins.skipSpace
      rw [htext]
      refine value_object (by rwa [hskip]) ?_
      rw [hskip]
      refine fields_pretty fuel level key v fields rfl ?_
      simp only [pretty, List.length_append, List.length_cons] at hfuel
      omega
termination_by v => sizeOf v

theorem items_pretty (fuel level : Nat) {rest s : List Char} : (v : Json) → (items : List Json) →
    skipSpace s = skipSpace (pretty (level + 1) v ++ (prettyItems level items ++ rest)) →
    (pretty (level + 1) v).length + (prettyItems level items).length < fuel →
      Tree.items fuel s = some (retold v :: retoldItems items, rest)
  | v, [], hs, hfuel => by
      obtain ⟨fuel, rfl⟩ := Nat.exists_eq_add_one_of_ne_zero (Nat.ne_zero_of_lt hfuel)
      rw [prettyItems, List.length_append, List.length_singleton] at hfuel
      have hvalue := value_pretty fuel (level + 1) v (stops_prettyItems level [] rest) (by omega)
      refine items_last ((value_congr fuel hs).trans hvalue) ?_
      rw [prettyItems, List.append_assoc, skipSpace_newline]
      exact skipSpace_cons rfl rest
  | v, w :: items, hs, hfuel => by
      obtain ⟨fuel, rfl⟩ := Nat.exists_eq_add_one_of_ne_zero (Nat.ne_zero_of_lt hfuel)
      have htext : prettyItems level (w :: items) ++ rest = ',' :: (newline (level + 1) ++
          (pretty (level + 1) w ++ (prettyItems level items ++ rest))) := by
        simp [prettyItems]
      simp only [prettyItems, List.length_append, List.length_cons] at hfuel
      have hvalue := value_pretty fuel (level + 1) v (stops_prettyItems level (w :: items) rest)
        (by omega)
      refine items_more ((value_congr fuel hs).trans hvalue) ?_
        (items_pretty fuel level w items (skipSpace_newline (level + 1) _)
          (by omega))
      rw [htext]
      exact skipSpace_cons rfl _
termination_by v items => sizeOf v + sizeOf items

theorem fields_pretty (fuel level : Nat) {rest s : List Char} : (key : String) → (v : Json) →
    (fields : List (String × Json)) →
    skipSpace s = skipSpace (quoted key ++ ':' :: ' ' :: (pretty (level + 1) v ++
      (prettyFields level fields ++ rest))) →
    (pretty (level + 1) v).length + (prettyFields level fields).length < fuel →
      Tree.fields fuel s = some ((some key, retold v) :: retoldFields fields, rest)
  | key, v, [], hs, hfuel => by
      obtain ⟨fuel, rfl⟩ := Nat.exists_eq_add_one_of_ne_zero (Nat.ne_zero_of_lt hfuel)
      rw [prettyFields, List.length_append, List.length_singleton] at hfuel
      have hvalue := value_pretty fuel (level + 1) v (stops_prettyFields level [] rest)
        (by omega)
      refine fields_last hs ((value_congr fuel (skipSpace_blank _)).trans hvalue) ?_
      rw [prettyFields, List.append_assoc, skipSpace_newline]
      exact skipSpace_cons rfl rest
  | key, v, (other, w) :: fields, hs, hfuel => by
      obtain ⟨fuel, rfl⟩ := Nat.exists_eq_add_one_of_ne_zero (Nat.ne_zero_of_lt hfuel)
      have htext : prettyFields level ((other, w) :: fields) ++ rest = ',' ::
          (newline (level + 1) ++ (quoted other ++ ':' :: ' ' :: (pretty (level + 1) w ++
            (prettyFields level fields ++ rest)))) := by
        simp [prettyFields]
      simp only [prettyFields, List.length_append, List.length_cons] at hfuel
      have hvalue := value_pretty fuel (level + 1) v
        (stops_prettyFields level ((other, w) :: fields) rest) (by omega)
      refine fields_more hs ((value_congr fuel (skipSpace_blank _)).trans hvalue) ?_
        (fields_pretty fuel level other w fields
          (skipSpace_newline (level + 1) _) (by omega))
      rw [htext]
      exact skipSpace_cons rfl _
termination_by _ v fields => sizeOf v + sizeOf fields

end

/-- An indented text is parsed to the tree of what it tells. -/
theorem parse_toPrettyText (v : Json) : parse (toPrettyText v) = some (retold v) := by
  have hread := value_pretty (2 * (pretty 0 v).length + 2) 0 v stops_nil (by omega)
  rw [List.append_nil] at hread
  simp [parse, toPrettyText, hread, skipSpace]

end Values

end Tree

end Json

end CertAuthority
