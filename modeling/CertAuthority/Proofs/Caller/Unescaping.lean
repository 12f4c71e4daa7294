import CertAuthority.Proofs.Caller.ForwardedName

/-!
# What splitting a forwarded name undoes

A backslash takes the next character as it is, unless it was itself taken so.  Of the backslashes
that stand right before a character every second one is therefore taken as it is, and the character
is protected if their number is odd.  That is all that the splitting remembers of what it has read.

Splitting undoes the writing of a list of parts, whichever characters have a backslash before them.
A text that does not end in the middle of an escape was in turn written from its own parts, and but
for the backslashes that protect and the commas that separate nothing of it is lost.
-/

namespace CertAuthority.ForwardedName

/-- Whether a text ends in the middle of an escape: with an odd number of backslashes. -/
def endsEscaping (text : List Char) : Bool :=
  (text.reverse.takeWhile (· = '\\')).length % 2 = 1

theorem endsEscaping_nil : endsEscaping [] = false := rfl

theorem endsEscaping_concat (before : List Char) (c : Char) :
    endsEscaping (before ++ [c]) = (decide (c = '\\') && !endsEscaping before) := by
  unfold endsEscaping
  rw [List.reverse_concat, List.takeWhile_cons]
  by_cases hbackslash : c = '\\'
  · simp only [hbackslash, decide_true, if_true, List.length_cons, Bool.true_and]
    rw [← decide_not, decide_eq_decide]
    omega
  · simp [hbackslash]

/-! ## What each character is for -/

/-- What a character of a forwarded name is for. -/
inductive Role where
  /-- It belongs to a part. -/
  | content
  /-- A backslash that takes the next character as it is. -/
  | escape
  /-- A comma between two parts. -/
  | separator
  deriving DecidableEq

/-- What a character is for, by what stands before it. -/
def roleOf (before : List Char) (c : Char) : Role :=
  if endsEscaping before then .content
  else if c = '\\' then .escape
  else if c = ',' then .separator
  else .content

def rolesFrom (before : List Char) : List Char → List (Char × Role)
  | [] => []
  | c :: rest => (c, roleOf before c) :: rolesFrom (before ++ [c]) rest

/-- The characters of a text, each with what it is for. -/
def roles (dn : List Char) : List (Char × Role) :=
  rolesFrom [] dn

/-- How many characters of a text are for something. -/
def countOf (role : Role) (characters : List (Char × Role)) : Nat :=
  characters.countP (·.2 = role)

/-- The characters that belong to parts. -/
def contentOf (characters : List (Char × Role)) : List Char :=
  (characters.filter (·.2 = .content)).map (·.1)

theorem map_rolesFrom (before dn : List Char) : (rolesFrom before dn).map (·.1) = dn := by
  induction dn generalizing before with
  | nil => rfl
  | cons c rest ih => rw [rolesFrom, List.map_cons, ih]

/-- What a character can be for, and whether an escape begins or ends with it. -/
theorem role_cases (before : List Char) (c : Char) :
    (endsEscaping before = true ∧ roleOf before c = .content ∧
        endsEscaping (before ++ [c]) = false) ∨
      (endsEscaping before = false ∧ c = '\\' ∧ roleOf before c = .escape ∧
        endsEscaping (before ++ [c]) = true) ∨
      (endsEscaping before = false ∧ c = ',' ∧ roleOf before c = .separator ∧
        endsEscaping (before ++ [c]) = false) ∨
      (endsEscaping before = false ∧ c ≠ ',' ∧ c ≠ '\\' ∧ roleOf before c = .content ∧
        endsEscaping (before ++ [c]) = false) := by
  rw [endsEscaping_concat, roleOf]
  cases endsEscaping before with
  | true => simp
  | false =>
      by_cases hbackslash : c = '\\'
      · simp [hbackslash]
      · by_cases hcomma : c = ','
        · simp [hcomma]
        · simp [hbackslash, hcomma]

/-- How the splitting goes on at a character, by what that is for. -/
theorem splitFrom_cons (current before : List Char) (c : Char) (rest : List Char) :
    splitFrom current (endsEscaping before) (c :: rest) =
      match roleOf before c with
      | .content => splitFrom (c :: current) (endsEscaping (before ++ [c])) rest
      | .escape => splitFrom current (endsEscaping (before ++ [c])) rest
      | .separator => current.reverse :: splitFrom [] (endsEscaping (before ++ [c])) rest := by
  rcases role_cases before c with ⟨hbefore, hrole, hnext⟩ | ⟨hbefore, rfl, hrole, hnext⟩ |
    ⟨hbefore, rfl, hrole, hnext⟩ | ⟨hbefore, hcomma, hbackslash, hrole, hnext⟩
  · simp [splitFrom, hbefore, hrole, hnext]
  · simp [splitFrom, hbefore, hrole, hnext]
  · simp [splitFrom, hbefore, hrole, hnext]
  · simp [splitFrom, hbefore, hrole, hnext, hcomma, hbackslash]

theorem length_splitFrom (current before dn : List Char) :
    (splitFrom current (endsEscaping before) dn).length =
      countOf .separator (rolesFrom before dn) + 1 := by
  induction dn generalizing current before with
  | nil => rfl
  | cons c rest ih =>
      rw [splitFrom_cons, rolesFrom, countOf, List.countP_cons]
      cases roleOf before c with
      | content => simpa [countOf] using ih (c :: current) (before ++ [c])
      | escape => simpa [countOf] using ih current (before ++ [c])
      | separator => simpa [countOf] using ih [] (before ++ [c])

theorem flatten_splitFrom (current before dn : List Char) :
    (splitFrom current (endsEscaping before) dn).flatten =
      current.reverse ++ contentOf (rolesFrom before dn) := by
  induction dn generalizing current before with
  | nil => simp [splitFrom, rolesFrom, contentOf]
  | cons c rest ih =>
      rw [splitFrom_cons, rolesFrom, contentOf, List.filter_cons]
      cases roleOf before c with
      | content => simpa [contentOf] using ih (c :: current) (before ++ [c])
      | escape => simpa [contentOf] using ih current (before ++ [c])
      | separator => simpa [contentOf] using ih [] (before ++ [c])

theorem splitFrom_ne_nil (current before dn : List Char) :
    splitFrom current (endsEscaping before) dn ≠ [] :=
  List.ne_nil_of_length_eq_add_one (length_splitFrom current before dn)

/-! ## Texts and their parts -/

/-- That a text spells parts, with commas between them. -/
def Joins (dn : List Char) (parts : List (List Char)) : Prop :=
  ∃ spellings, dn = [','].intercalate spellings ∧ List.Forall₂ Spelling spellings parts

section Joins

variable {dn spelling text : List Char} {parts : List (List Char)}

theorem joins_single (hspelling : Spelling spelling text) : Joins spelling [text] :=
  ⟨[spelling], by rw [List.intercalate_singleton], .cons hspelling .nil⟩

theorem Joins.cons (hspelling : Spelling spelling text) (hjoins : Joins dn parts)
    (hparts : parts ≠ []) : Joins (spelling ++ ',' :: dn) (text :: parts) := by
  obtain ⟨spellings, rfl, hspellings⟩ := hjoins
  cases hspellings with
  | nil => exact absurd rfl hparts
  | @cons next part spellings parts hnext hrest =>
      refine ⟨spelling :: next :: spellings, ?_, .cons hspelling (.cons hnext hrest)⟩
      rw [List.intercalate_cons_cons, List.append_assoc, List.singleton_append]

/-- A spelling does not end in the middle of an escape. -/
theorem Spelling.endsEscaping_append (hspelling : Spelling spelling text) {before : List Char}
    (hbefore : endsEscaping before = false) : endsEscaping (before ++ spelling) = false := by
  induction hspelling generalizing before with
  | nil => rwa [List.append_nil]
  | @plain c spelling text _ hbackslash _ ih =>
      rw [List.append_cons]
      exact ih (by simp [endsEscaping_concat, hbackslash])
  | @escaped c spelling text _ ih =>
      rw [List.append_cons, List.append_cons]
      exact ih (by rw [endsEscaping_concat, endsEscaping_concat, hbefore]; simp)

theorem endsEscaping_intercalate {spellings : List (List Char)}
    (hspellings : List.Forall₂ Spelling spellings parts) {before : List Char}
    (hbefore : endsEscaping before = false) :
    endsEscaping (before ++ [','].intercalate spellings) = false := by
  induction hspellings generalizing before with
  | nil => rwa [List.intercalate_nil, List.append_nil]
  | @cons spelling text spellings parts hspelling hrest ih =>
      have hspelled := hspelling.endsEscaping_append hbefore
      cases hrest with
      | nil => rwa [List.intercalate_singleton]
      | cons hnext hothers =>
          have hcomma : endsEscaping (before ++ spelling ++ [',']) = false := by
            rw [endsEscaping_concat, decide_eq_false (by decide), Bool.false_and]
          rw [List.intercalate_cons_cons, ← List.append_assoc, ← List.append_assoc]
          exact ih hcomma

/-- What has been read of a part: a spelling of it, and the backslash of an escape that is not yet
complete. -/
def IsRead (read text : List Char) (escaping : Bool) : Prop :=
  ∃ spelling, Spelling spelling text ∧ read = spelling ++ if escaping then ['\\'] else []

variable {before read : List Char} {c : Char}

theorem isRead_nil : IsRead [] [] false :=
  ⟨[], .nil, rfl⟩

theorem IsRead.spelled (hread : IsRead read text false) : Spelling read text := by
  obtain ⟨spelling, hspelling, rfl⟩ := hread
  rwa [if_neg Bool.false_ne_true, List.append_nil]

/-- A character of the part itself, with or without a backslash before it. -/
theorem IsRead.content (hread : IsRead read text (endsEscaping before))
    (hrole : roleOf before c = .content) :
    IsRead (read ++ [c]) (text ++ [c]) (endsEscaping (before ++ [c])) := by
  rcases role_cases before c with ⟨hbefore, -, hnext⟩ | ⟨-, -, hother, -⟩ | ⟨-, -, hother, -⟩ |
    ⟨hbefore, hcomma, hbackslash, -, hnext⟩
  · rw [hbefore] at hread
    obtain ⟨spelling, hspelling, rfl⟩ := hread
    exact ⟨spelling ++ ['\\', c], hspelling.append (.escaped .nil), by simp [hnext]⟩
  · cases hrole.symm.trans hother
  · cases hrole.symm.trans hother
  · rw [hbefore] at hread
    exact ⟨read ++ [c], hread.spelled.append (.plain hcomma hbackslash .nil), by simp [hnext]⟩

theorem IsRead.escape (hread : IsRead read text (endsEscaping before))
    (hrole : roleOf before c = .escape) :
    IsRead (read ++ [c]) text (endsEscaping (before ++ [c])) := by
  rcases role_cases before c with ⟨-, hother, -⟩ | ⟨hbefore, rfl, -, hnext⟩ | ⟨-, -, hother, -⟩ |
    ⟨-, -, -, hother, -⟩
  · cases hrole.symm.trans hother
  · rw [hbefore] at hread
    exact ⟨read, hread.spelled, by simp [hnext]⟩
  · cases hrole.symm.trans hother
  · cases hrole.symm.trans hother

/-- A part is complete where a comma separates it from the next. -/
theorem IsRead.separator (hread : IsRead read text (endsEscaping before))
    (hrole : roleOf before c = .separator) :
    c = ',' ∧ Spelling read text ∧ endsEscaping (before ++ [c]) = false := by
  rcases role_cases before c with ⟨-, hother, -⟩ | ⟨-, -, hother, -⟩ | ⟨hbefore, rfl, -, hnext⟩ |
    ⟨-, -, -, hother, -⟩
  · cases hrole.symm.trans hother
  · cases hrole.symm.trans hother
  · rw [hbefore] at hread
    exact ⟨rfl, hread.spelled, hnext⟩
  · cases hrole.symm.trans hother

/-- What is yet to be read, behind what has been read of the part before it, is written from what it
is split into. -/
theorem joins_splitFrom {current : List Char} (dn : List Char)
    (hread : IsRead read current.reverse (endsEscaping before))
    (hend : endsEscaping (before ++ dn) = false) :
    Joins (read ++ dn) (splitFrom current (endsEscaping before) dn) := by
  -- All that was read decides the roles, but only what was read of the last part is written here.
  induction dn generalizing current before read with
  | nil =>
      rw [List.append_nil] at hend
      rw [hend] at hread
      rw [List.append_nil]
      exact joins_single hread.spelled
  | cons c rest ih =>
      rw [List.append_cons] at hend
      rw [splitFrom_cons]
      cases hrole : roleOf before c with
      | content =>
          have hmore := hread.content hrole
          rw [← List.reverse_cons] at hmore
          rw [List.append_cons]
          exact ih hmore hend
      | escape =>
          rw [List.append_cons]
          exact ih (hread.escape hrole) hend
      | separator =>
          obtain ⟨rfl, hspelling, hnext⟩ := hread.separator hrole
          have hnone : IsRead [] ([] : List Char).reverse (endsEscaping (before ++ [','])) :=
            hnext ▸ isRead_nil
          exact (ih hnone hend).cons hspelling (splitFrom_ne_nil _ _ _)

/-- Exactly the texts that do not end in the middle of an escape are written from their parts. -/
theorem joins_split_iff (dn : List Char) : Joins dn (split dn) ↔ endsEscaping dn = false := by
  constructor
  · rintro ⟨spellings, hdn, hspellings⟩
    rw [hdn]
    exact endsEscaping_intercalate hspellings endsEscaping_nil
  · intro hend
    have hnone : IsRead [] ([] : List Char).reverse (endsEscaping []) := isRead_nil
    exact joins_splitFrom dn hnone hend

end Joins

/-- How a text and its parts belong together. -/
structure Unescaping (dn : List Char) : Prop where
  /-- Every list of parts can be written, with no more backslashes than are needed. -/
  written : ∀ parts : List (List Char),
    Joins ([','].intercalate (parts.map (·.flatMap Attribute.escaped))) parts
  /-- A text that parts were written as, with backslashes before all commas and backslashes and
  before other characters as one likes, is split into these very parts. -/
  undone : ∀ parts, parts ≠ [] → Joins dn parts → split dn = parts
  /-- A text was in this way written from its own parts unless it ends in the middle of an escape. -/
  own : Joins dn (split dn) ↔ endsEscaping dn = false
  /-- Each character of the text is for something: an odd number of backslashes right before it
  makes it belong to a part, else backslashes escape, commas separate, and all others belong. -/
  accounted : (roles dn).map (·.1) = dn
  /-- There is one part more than there are commas that separate. -/
  counted : (split dn).length = countOf .separator (roles dn) + 1
  /-- The parts hold all characters that neither escape nor separate, in their order. -/
  held : (split dn).flatten = contentOf (roles dn)

/-- Splitting undoes what is written with backslashes, and loses nothing but these and the commas
between the parts. -/
theorem unescaping (dn : List Char) : Unescaping dn where
  written := by
    intro parts
    refine ⟨_, rfl, ?_⟩
    rw [List.forall₂_map_left_iff, List.forall₂_same]
    exact fun part _ => Attribute.spelling_escaped part
  undone := by
    rintro parts hparts ⟨spellings, rfl, hspellings⟩
    exact split_intercalate hparts hspellings
  own := joins_split_iff dn
  accounted := map_rolesFrom [] dn
  counted := length_splitFrom [] [] dn
  held := flatten_splitFrom [] [] dn

example : split "a\\\\,\\,b,,\\".toList = ["a\\".toList, ",b".toList, [], []] := by
  decide +kernel

end CertAuthority.ForwardedName
