import CertAuthority.Proofs.Json.Fields
import CertAuthority.Store.Memory
import CertAuthority.Store.Snapshot

/-!
# What a table in memory holds

A table is looked at through the entry under each key.  These lemmas say what each call does to
that view: a write that is accepted changes the entry under its own key and no other, and a call
that is refused changes nothing.
-/

namespace CertAuthority

namespace Entries

variable {α : Type}

/-- No key stands twice. -/
def Distinct (entries : Entries α) : Prop :=
  (entries.map (·.1)).Nodup

@[simp]
theorem find?_nil (key : String) : find? ([] : Entries α) key = none := rfl

theorem find?_cons (key other : String) (entry : Versioned α) (entries : Entries α) :
    find? ((key, entry) :: entries) other =
      if key = other then some entry else find? entries other := by
  by_cases heq : key = other
  · simp [find?, heq]
  · simp [find?, heq]

theorem find?_append_single {entries : Entries α} {key : String} (entry : Versioned α)
    (hnew : find? entries key = none) (other : String) :
    find? (entries ++ [(key, entry)]) other =
      if other = key then some entry else find? entries other := by
  induction entries with
  | nil => simp [find?_cons, eq_comm]
  | cons head tail ih =>
      obtain ⟨first, held⟩ := head
      rw [find?_cons] at hnew
      by_cases hfirst : first = key
      · simp [hfirst] at hnew
      · rw [if_neg hfirst] at hnew
        rw [List.cons_append, find?_cons, find?_cons, ih hnew]
        by_cases hother : other = key
        · simp [hother, hfirst]
        · simp [hother]

theorem replace_cons (first key : String) (held entry : Versioned α) (entries : Entries α) :
    replace ((first, held) :: entries) key entry =
      (first, if first = key then entry else held) :: replace entries key entry := by
  by_cases hfirst : first = key <;> simp [replace, hfirst]

theorem find?_replace_of_ne (entries : Entries α) {key other : String} (entry : Versioned α)
    (hother : other ≠ key) : find? (replace entries key entry) other = find? entries other := by
  induction entries with
  | nil => rfl
  | cons head tail ih =>
      obtain ⟨first, held⟩ := head
      rw [replace_cons, find?_cons, find?_cons, ih]
      by_cases hfirst : first = other
      · simp [hfirst, hother]
      · simp [hfirst]

theorem find?_replace_self {entries : Entries α} {key : String} {held : Versioned α}
    (entry : Versioned α) (hheld : find? entries key = some held) :
    find? (replace entries key entry) key = some entry := by
  induction entries with
  | nil => simp at hheld
  | cons head tail ih =>
      obtain ⟨first, kept⟩ := head
      rw [find?_cons] at hheld
      rw [replace_cons, find?_cons]
      by_cases hfirst : first = key
      · simp [hfirst]
      · rw [if_neg hfirst] at hheld ⊢
        exact ih hheld

theorem find?_replace {entries : Entries α} {key : String} {held : Versioned α}
    (entry : Versioned α) (hheld : find? entries key = some held) (other : String) :
    find? (replace entries key entry) other =
      if other = key then some entry else find? entries other := by
  by_cases hother : other = key
  · rw [if_pos hother, hother, find?_replace_self entry hheld]
  · rw [if_neg hother, find?_replace_of_ne entries entry hother]

theorem find?_erase (entries : Entries α) (key other : String) :
    find? (erase entries key) other = if other = key then none else find? entries other := by
  induction entries with
  | nil => simp [erase]
  | cons head tail ih =>
      obtain ⟨first, held⟩ := head
      by_cases hfirst : first = key
      · have hskip : erase ((first, held) :: tail) key = erase tail key := by
          simp [erase, hfirst]
        rw [hskip, ih, find?_cons]
        by_cases hother : other = key
        · simp [hother]
        · simp [hother, hfirst, Ne.symm hother]
      · have hkeep : erase ((first, held) :: tail) key = (first, held) :: erase tail key := by
          simp [erase, hfirst]
        rw [hkeep, find?_cons, find?_cons, ih]
        by_cases hother : other = key
        · simp [hother, hfirst]
        · simp [hother]

theorem find?_eq_some_of_mem {entries : Entries α} (hdistinct : Distinct entries)
    {key : String} {entry : Versioned α} (hmem : (key, entry) ∈ entries) :
    find? entries key = some entry := by
  induction entries with
  | nil => simp at hmem
  | cons head tail ih =>
      obtain ⟨first, held⟩ := head
      simp only [Distinct, List.map_cons, List.nodup_cons] at hdistinct
      rw [find?_cons]
      rcases List.mem_cons.mp hmem with heq | htail
      · obtain ⟨rfl, rfl⟩ := Prod.mk.inj heq
        simp
      · have hne : first ≠ key := by
          rintro rfl
          exact hdistinct.1 (List.mem_map.mpr ⟨_, htail, rfl⟩)
        rw [if_neg hne]
        exact ih hdistinct.2 htail

theorem mem_of_find?_eq_some {entries : Entries α} {key : String} {entry : Versioned α}
    (hfind : find? entries key = some entry) : (key, entry) ∈ entries := by
  obtain ⟨⟨found, held⟩, hfound, rfl⟩ := Option.map_eq_some_iff.mp hfind
  have hkey : found = key := by simpa using List.find?_some hfound
  exact hkey ▸ List.mem_of_find?_eq_some hfound

theorem Distinct.nodup {entries : Entries α} (hdistinct : Distinct entries) : entries.Nodup :=
  List.Pairwise.of_map (fun entry => entry.1) (fun _ _ hne heq => hne (congrArg _ heq)) hdistinct

/-- What has the same entry under each key is the same in another order. -/
theorem perm_of_find? {entries others : Entries α} (hentries : Distinct entries)
    (hothers : Distinct others) (hsame : ∀ key, find? entries key = find? others key) :
    entries.Perm others := by
  refine (List.perm_ext_iff_of_nodup hentries.nodup hothers.nodup).mpr fun ⟨key, entry⟩ => ?_
  constructor
  · intro hmem
    exact mem_of_find?_eq_some ((hsame key).symm.trans (find?_eq_some_of_mem hentries hmem))
  · intro hmem
    exact mem_of_find?_eq_some ((hsame key).trans (find?_eq_some_of_mem hothers hmem))

theorem Distinct.perm {entries others : Entries α} (hothers : Distinct others)
    (hperm : entries.Perm others) : Distinct entries :=
  (hperm.map _).nodup_iff.mpr hothers

/-- The order makes no difference to what is found. -/
theorem find?_of_perm {entries others : Entries α} (hothers : Distinct others)
    (hperm : entries.Perm others) (key : String) : find? entries key = find? others key := by
  have hentries := hothers.perm hperm
  apply Option.ext
  intro entry
  constructor
  · intro hfind
    exact find?_eq_some_of_mem hothers (hperm.mem_iff.mp (mem_of_find?_eq_some hfind))
  · intro hfind
    exact find?_eq_some_of_mem hentries (hperm.mem_iff.mpr (mem_of_find?_eq_some hfind))

/-- Under each key stands what is found there, and nothing else. -/
theorem filter_key {entries : Entries α} (hdistinct : Distinct entries) (key : String) :
    entries.filter (·.1 = key) = ((find? entries key).map fun entry => (key, entry)).toList := by
  induction entries with
  | nil => rfl
  | cons head tail ih =>
      obtain ⟨first, held⟩ := head
      simp only [Distinct, List.map_cons, List.nodup_cons] at hdistinct
      rw [find?_cons]
      by_cases hfirst : first = key
      · subst hfirst
        have htail : tail.filter (·.1 = first) = [] := by
          refine List.filter_eq_nil_iff.mpr fun entry hentry heq => hdistinct.1 ?_
          exact of_decide_eq_true heq ▸ List.mem_map_of_mem hentry
        simp [htail]
      · simpa [hfirst] using ih hdistinct.2

theorem contains_keys (entries : Entries α) (key : String) :
    (entries.map (·.1)).contains key = (find? entries key).isSome := by
  induction entries with
  | nil => rfl
  | cons head tail ih =>
      obtain ⟨first, held⟩ := head
      rw [find?_cons, List.map_cons, List.contains_cons, ih]
      by_cases hfirst : first = key
      · simp [hfirst]
      · simp [hfirst, Ne.symm hfirst]

theorem not_mem_keys_of_find?_eq_none {entries : Entries α} {key : String}
    (hnone : find? entries key = none) : key ∉ entries.map (·.1) := by
  intro hmem
  obtain ⟨⟨first, held⟩, hentry, rfl⟩ := List.mem_map.mp hmem
  simp only [find?, Option.map_eq_none_iff, List.find?_eq_none] at hnone
  simpa using hnone _ hentry

theorem Distinct.append_single {entries : Entries α} (hdistinct : Distinct entries)
    {key : String} (entry : Versioned α) (hnew : find? entries key = none) :
    Distinct (entries ++ [(key, entry)]) := by
  have hfresh := not_mem_keys_of_find?_eq_none hnew
  simp only [Distinct, List.map_append, List.map_cons, List.map_nil]
  exact List.nodup_append.mpr ⟨hdistinct, by simp, by
    intro first hfirst second hsecond
    rw [List.mem_singleton.mp hsecond]
    rintro rfl
    exact hfresh hfirst⟩

theorem keys_replace (entries : Entries α) (key : String) (entry : Versioned α) :
    (replace entries key entry).map (·.1) = entries.map (·.1) := by
  simp only [replace, List.map_map]
  apply List.map_congr_left
  rintro ⟨first, held⟩ -
  by_cases hfirst : first = key <;> simp [hfirst]

theorem Distinct.replace {entries : Entries α} (hdistinct : Distinct entries) (key : String)
    (entry : Versioned α) : Distinct (replace entries key entry) := by
  rw [Distinct, keys_replace]
  exact hdistinct

theorem Distinct.erase {entries : Entries α} (hdistinct : Distinct entries) (key : String) :
    Distinct (erase entries key) :=
  hdistinct.sublist (List.filter_sublist.map _)

theorem length_replace (entries : Entries α) (key : String) (entry : Versioned α) :
    (replace entries key entry).length = entries.length :=
  List.length_map _

theorem erase_of_not_mem {entries : Entries α} {key : String}
    (hkey : key ∉ entries.map (·.1)) : erase entries key = entries := by
  refine List.filter_eq_self.mpr fun entry hentry => decide_eq_true ?_
  rintro rfl
  exact hkey (List.mem_map_of_mem hentry)

/-- What is left without one of the entries. -/
theorem erase_append_cons {before after : Entries α} {key : String} {entry : Versioned α}
    (hdistinct : Distinct (before ++ (key, entry) :: after)) :
    erase (before ++ (key, entry) :: after) key = before ++ after := by
  rw [Distinct, List.map_append, List.map_cons, List.perm_middle.nodup_iff, List.nodup_cons,
    List.mem_append, not_or] at hdistinct
  obtain ⟨⟨hbefore, hafter⟩, -⟩ := hdistinct
  have hhead : erase ((key, entry) :: after) key = erase after key := by simp [erase]
  calc erase (before ++ (key, entry) :: after) key
    _ = erase before key ++ erase ((key, entry) :: after) key := List.filter_append _ _
    _ = before ++ after := by rw [hhead, erase_of_not_mem hbefore, erase_of_not_mem hafter]

theorem length_erase {entries : Entries α} (hdistinct : Distinct entries) {key : String}
    {held : Versioned α} (hfind : find? entries key = some held) :
    (erase entries key).length + 1 = entries.length := by
  obtain ⟨before, after, rfl⟩ := List.append_of_mem (mem_of_find?_eq_some hfind)
  rw [erase_append_cons hdistinct, List.length_append, List.length_append, List.length_cons]
  omega

/-! ### Entries in the order of their keys -/

variable {entries : Entries α}

theorem find?_insertField (key : String) (entry : Versioned α) (entries : Entries α)
    (other : String) :
    find? (Json.insertField key entry entries) other =
      if other = key then some entry else find? entries other := by
  induction entries with
  | nil =>
      rw [Json.insertField, find?_cons]
      simp only [eq_comm]
  | cons head rest ih =>
      obtain ⟨first, held⟩ := head
      unfold Json.insertField
      split
      · rw [find?_cons]
        simp only [eq_comm]
      · split
        · next heq =>
            subst heq
            rw [find?_cons, find?_cons]
            by_cases hother : key = other
            · simp [hother]
            · simp [hother, Ne.symm hother]
        · next hne =>
            rw [find?_cons, find?_cons, ih]
            by_cases hother : first = other
            · subst hother
              simp [Ne.symm hne]
            · simp [hother]

/-- A new entry is found under its key, and nothing else changes. -/
theorem find?_insert (entries : Entries α) (key : String) (value : α) (other : String) :
    find? (Snapshot.insert entries key value) other =
      if other = key then some (.fresh value) else find? entries other :=
  find?_insertField key (.fresh value) entries other

theorem mem_replace {key : String} {entry : Versioned α} {found : String × Versioned α}
    (hmem : found ∈ entries.replace key entry) : found.2 = entry ∨ found ∈ entries := by
  obtain ⟨⟨first, held⟩, hheld, rfl⟩ := List.mem_map.mp hmem
  dsimp only
  split
  · exact .inl rfl
  · exact .inr hheld

theorem ascending_replace (hascending : Json.Ascending entries) (key : String)
    (entry : Versioned α) : Json.Ascending (entries.replace key entry) := by
  rw [Json.Ascending, keys_replace]
  exact hascending

theorem distinct_of_ascending (hascending : Json.Ascending entries) : Distinct entries := by
  refine List.Pairwise.imp (fun {first second} hlt heq => ?_) hascending
  subst heq
  exact String.lt_irrefl first hlt

theorem ascending_erase (hascending : Json.Ascending entries) (key : String) :
    Json.Ascending (entries.erase key) :=
  hascending.sublist (List.filter_sublist.map _)

end Entries

namespace MemoryTable

variable {α : Type}

def find? (t : MemoryTable α) (key : String) : Option (Versioned α) :=
  t.entries.find? key

/-- A creation is accepted under a key that is not there, and then puts the value under it. -/
theorem create_cases (t : MemoryTable α) (key : String) (value : α) :
    (∃ held, t.find? key = some held ∧ t.create key value = (.error (.conflict key), t)) ∨
      (t.find? key = none ∧ (t.create key value).1 = .ok Versioned.firstRevision ∧
        ∀ other, (t.create key value).2.find? other =
          if other = key then some (Versioned.fresh value) else t.find? other) := by
  cases hfind : t.entries.find? key with
  | some held => exact .inl ⟨held, hfind, by simp [create, hfind]⟩
  | none =>
      refine .inr ⟨hfind, by simp [create, hfind], fun other => ?_⟩
      simp only [create, hfind, find?]
      exact Entries.find?_append_single _ hfind other

/-- A change is accepted at the revision that the entry has, and then puts the value there. -/
theorem update_cases (t : MemoryTable α) (key : String) (value : α) (revision : Nat) :
    ((∀ held, t.find? key = some held → held.revision ≠ revision) ∧
        t.update key value revision = (.error (.conflict key), t)) ∨
      (∃ held, t.find? key = some held ∧ held.revision = revision ∧
        (t.update key value revision).1 = .ok (Versioned.nextRevision revision) ∧
        ∀ other, (t.update key value revision).2.find? other =
          if other = key then some ⟨value, Versioned.nextRevision revision⟩
          else t.find? other) := by
  cases hfind : t.entries.find? key with
  | none => exact .inl ⟨by simp [find?, hfind], by simp [update, hfind]⟩
  | some held =>
      by_cases hrevision : held.revision = revision
      · subst hrevision
        have hreply : (t.update key value held.revision).1 =
            .ok (Versioned.nextRevision held.revision) := by
          simp [update, hfind, Versioned.overwrite]
        refine .inr ⟨held, hfind, rfl, hreply, fun other => ?_⟩
        simp only [update, hfind, if_true, find?]
        exact Entries.find?_replace _ hfind other
      · exact .inl ⟨by simpa [find?, hfind] using hrevision, by simp [update, hfind, hrevision]⟩

/-- A removal is accepted at the revision that the entry has. -/
theorem delete_cases (t : MemoryTable α) (key : String) (revision : Nat) :
    ((∀ held, t.find? key = some held → held.revision ≠ revision) ∧
        t.delete key revision = (.error (.conflict key), t)) ∨
      (∃ held, t.find? key = some held ∧ held.revision = revision ∧
        (t.delete key revision).1 = .ok () ∧
        ∀ other, (t.delete key revision).2.find? other =
          if other = key then none else t.find? other) := by
  cases hfind : t.entries.find? key with
  | none => exact .inl ⟨by simp [find?, hfind], by simp [delete, hfind]⟩
  | some held =>
      by_cases hrevision : held.revision = revision
      · refine .inr ⟨held, hfind, hrevision, by simp [delete, hfind, hrevision], fun other => ?_⟩
        simp only [delete, hfind, hrevision, if_true, find?]
        exact Entries.find?_erase _ key other
      · exact .inl ⟨by simpa [find?, hfind] using hrevision, by simp [delete, hfind, hrevision]⟩

/-- A table that answers with an error has a conflict, and stays as it is. -/
theorem step_of_error {t : MemoryTable α} {call : TableCall α} {e : CaError}
    (herror : (t.step call).1 = .error e) : e = .conflict call.key ∧ (t.step call).2 = t := by
  cases call with
  | get key => cases herror
  | list => cases herror
  | create key value =>
      rw [step] at herror ⊢
      rcases t.create_cases key value with ⟨held, -, hrefused⟩ | ⟨-, hok, -⟩
      · rw [hrefused] at herror ⊢
        cases herror
        exact ⟨rfl, rfl⟩
      · cases hok.symm.trans herror
  | update key value revision =>
      rw [step] at herror ⊢
      rcases t.update_cases key value revision with ⟨-, hrefused⟩ | ⟨-, -, -, hok, -⟩
      · rw [hrefused] at herror ⊢
        cases herror
        exact ⟨rfl, rfl⟩
      · cases hok.symm.trans herror
  | delete key revision =>
      rw [step] at herror ⊢
      rcases t.delete_cases key revision with ⟨-, hrefused⟩ | ⟨-, -, -, hok, -⟩
      · rw [hrefused] at herror ⊢
        cases herror
        exact ⟨rfl, rfl⟩
      · cases hok.symm.trans herror

/-- No call puts a key into a table twice. -/
theorem distinct_step {t : MemoryTable α} (hdistinct : t.entries.Distinct) (call : TableCall α) :
    (t.step call).2.entries.Distinct := by
  cases call with
  | get key => exact hdistinct
  | list => exact hdistinct
  | create key value =>
      simp only [step, create]
      split
      · exact hdistinct
      · next hnew => exact hdistinct.append_single _ hnew
  | update key value revision =>
      simp only [step, update]
      split
      · exact hdistinct
      · split
        · exact hdistinct.replace _ _
        · exact hdistinct
  | delete key revision =>
      simp only [step, delete]
      split
      · exact hdistinct
      · split
        · exact hdistinct.erase _
        · exact hdistinct

end MemoryTable

end CertAuthority
