import CertAuthority.Json.Basic

/-!
# Fields in the order of their keys

The fields of an object that was read stand in ascending order of keys, each key once.  Fields that
stand so already stay as they are.
-/

namespace CertAuthority.Json

variable {α : Type}

/-- Keys ascend, and none stands twice. -/
def Ascending (fields : List (String × α)) : Prop :=
  (fields.map (·.1)).Pairwise (· < ·)

theorem ascending_cons {key : String} {value : α} {fields : List (String × α)} :
    Ascending ((key, value) :: fields) ↔ (∀ field ∈ fields, key < field.1) ∧ Ascending fields := by
  simp [Ascending]

theorem mem_insertField {key : String} {value : α} {fields : List (String × α)}
    {field : String × α} (hmem : field ∈ insertField key value fields) :
    field = (key, value) ∨ field ∈ fields := by
  induction fields with
  | nil => exact .inl (List.mem_singleton.mp hmem)
  | cons first fields ih =>
      obtain ⟨k, v⟩ := first
      unfold insertField at hmem
      split at hmem
      · exact List.mem_cons.mp hmem
      · split at hmem
        · exact (List.mem_cons.mp hmem).imp_right (List.mem_cons_of_mem _)
        · rcases List.mem_cons.mp hmem with rfl | hlater
          · exact .inr List.mem_cons_self
          · exact (ih hlater).imp_right (List.mem_cons_of_mem _)

theorem mem_insertField_self (key : String) (value : α) (fields : List (String × α)) :
    (key, value) ∈ insertField key value fields := by
  induction fields with
  | nil => exact List.mem_singleton_self _
  | cons first fields ih =>
      unfold insertField
      split
      · exact List.mem_cons_self
      · split
        · exact List.mem_cons_self
        · exact List.mem_cons_of_mem _ ih

theorem Ascending.insertField {fields : List (String × α)} (hfields : Ascending fields)
    (key : String) (value : α) : Ascending (insertField key value fields) := by
  induction fields with
  | nil => simp [Json.insertField, Ascending]
  | cons first fields ih =>
      obtain ⟨k, v⟩ := first
      obtain ⟨hfirst, hrest⟩ := ascending_cons.mp hfields
      unfold Json.insertField
      split
      · next hlt =>
          refine ascending_cons.mpr ⟨fun field hfield => ?_, hfields⟩
          rcases List.mem_cons.mp hfield with rfl | hlater
          · exact hlt
          · exact String.lt_trans hlt (hfirst field hlater)
      · next hnot =>
          split
          · next heq =>
              subst heq
              exact ascending_cons.mpr ⟨hfirst, hrest⟩
          · next hne =>
              have hlt : k < key := by
                rw [← String.not_le]
                exact fun hle => hne (String.le_antisymm hle (String.not_lt.mp hnot))
              refine ascending_cons.mpr ⟨fun field hfield => ?_, ih hrest⟩
              rcases mem_insertField hfield with rfl | hold
              · exact hlt
              · exact hfirst field hold

theorem ascending_sortedFields (fields : List (String × α)) : Ascending (sortedFields fields) := by
  have hfold (acc : List (String × α)) (hacc : Ascending acc) :
      Ascending (fields.foldl (fun acc field => insertField field.1 field.2 acc) acc) := by
    induction fields generalizing acc with
    | nil => exact hacc
    | cons field fields ih => exact ih _ (hacc.insertField field.1 field.2)
  exact hfold [] List.Pairwise.nil

theorem mem_of_mem_sortedFields {fields : List (String × α)} {field : String × α}
    (hmem : field ∈ sortedFields fields) : field ∈ fields := by
  have hfold (fields acc : List (String × α))
      (hacc : field ∈ fields.foldl (fun acc field => insertField field.1 field.2 acc) acc) :
      field ∈ acc ∨ field ∈ fields := by
    induction fields generalizing acc with
    | nil => exact .inl hacc
    | cons first fields ih =>
        rcases ih _ hacc with hinserted | hlater
        · rcases mem_insertField hinserted with rfl | hold
          · exact .inr List.mem_cons_self
          · exact .inl hold
        · exact .inr (List.mem_cons_of_mem _ hlater)
  exact (hfold fields [] hmem).resolve_left List.not_mem_nil

/-- A field whose key comes after all others is put behind them. -/
theorem insertField_of_last {key : String} {fields : List (String × α)}
    (hlast : ∀ field ∈ fields, field.1 < key) (value : α) :
    insertField key value fields = fields ++ [(key, value)] := by
  induction fields with
  | nil => rfl
  | cons first fields ih =>
      obtain ⟨k, v⟩ := first
      have hlt : k < key := hlast _ List.mem_cons_self
      have hne : ¬ key = k := by
        rintro rfl
        exact String.lt_irrefl _ hlt
      rw [insertField, if_neg (String.lt_asymm hlt), if_neg hne,
        ih fun field hfield => hlast field (List.mem_cons_of_mem _ hfield), List.cons_append]

theorem Ascending.sortedFields_eq {fields : List (String × α)} (hfields : Ascending fields) :
    sortedFields fields = fields := by
  have hfold (acc rest : List (String × α)) (hall : Ascending (acc ++ rest)) :
      rest.foldl (fun acc field => Json.insertField field.1 field.2 acc) acc = acc ++ rest := by
    induction rest generalizing acc with
    | nil => simp
    | cons field rest ih =>
        obtain ⟨key, value⟩ := field
        have hlast : ∀ field ∈ acc, field.1 < key := by
          intro field hfield
          rw [Ascending, List.map_append, List.pairwise_append] at hall
          exact hall.2.2 _ (List.mem_map_of_mem hfield) _ (by simp)
        change rest.foldl _ (Json.insertField key value acc) = _
        rw [insertField_of_last hlast, ih _ (by simpa using hall)]
        simp
  exact hfold [] fields hfields

end CertAuthority.Json
