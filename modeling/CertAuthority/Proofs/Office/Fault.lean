import CertAuthority.Proofs.Office.Effects
import CertAuthority.Store.Fault

/-!
# Faults are failures and others' writes

Whatever a fault does to a table, others may do to it in between, and the error that it answers is
one that a table may fail with.  So what is certain in all worlds whose stores may fail is certain
where faults wait.
-/

namespace CertAuthority

namespace Fault

theorem ofTable_toError (e : FaultError) (key : String) : (e.toError key).isOfTable := by
  cases e <;> rfl

section Answer

variable {σ : Type}
variable {ask : (name : TableName) → (call : TableCall name.Row) → σ → call.Reply × σ}
variable {name : TableName}

/-- What others may make of a table by calls of their own. -/
inductive Disturbs (ask : (name : TableName) → (call : TableCall name.Row) → σ → call.Reply × σ)
    (name : TableName) : σ → σ → Prop where
  | still (s : σ) : Disturbs ask name s s
  | call {s met : σ} (call : TableCall name.Row)
    (hlater : Disturbs ask name (ask name call s).2 met) : Disturbs ask name s met

theorem Disturbs.trans {s met last : σ} (hmet : Disturbs ask name s met)
    (hlast : Disturbs ask name met last) : Disturbs ask name s last := by
  induction hmet with
  | still s => exact hlast
  | call call _ ih => exact .call call (ih hlast)

theorem disturbs_disturb (f : Fault) (key : String) (s : σ) :
    Disturbs ask name s (f.disturb ask name key s) := by
  unfold disturb
  extract_lets entry? put
  have hput : Disturbs ask name s put := by
    unfold put
    split
    · exact .call _ (.still _)
    · exact .call _ (.still _)
    · exact .still s
  split
  · exact hput.trans (.call _ (.still _))
  · exact hput

/-- Where faults wait, a call meets what others have made of its table.  It is answered by the
table, or fails and leaves the table so. -/
theorem answer_cases (faults : List Fault) (call : TableCall name.Row) (s : σ) :
    ∃ met, Disturbs ask name s met ∧
      (((answer faults ask name call s).1 = (ask name call met).1 ∧
          (answer faults ask name call s).2.2 = (ask name call met).2) ∨
        ∃ fault : TableFault, (answer faults ask name call s).1 = call.failed fault.error ∧
          (answer faults ask name call s).2.2 = met) := by
  unfold answer
  extract_lets pass
  split
  · exact ⟨s, .still s, .inl ⟨rfl, rfl⟩⟩
  · next i _ =>
      split
      · exact ⟨s, .still s, .inl ⟨rfl, rfl⟩⟩
      · next f _ =>
          split
          · exact ⟨s, .still s, .inl ⟨rfl, rfl⟩⟩
          · extract_lets left met
            have hmet : Disturbs ask name s met := by
              unfold met
              split
              · exact .still s
              · exact disturbs_disturb f call.key s
            split
            · exact ⟨met, hmet, .inl ⟨rfl, rfl⟩⟩
            · next e _ => exact ⟨met, hmet, .inr ⟨⟨_, ofTable_toError e call.key⟩, rfl, rfl⟩⟩

end Answer

end Fault

namespace World

variable {w : World} {name : TableName}

/-- How tables in memory are asked. -/
def askTables (name : TableName) (call : TableCall name.Row) (tables : MemoryTables) :
    call.Reply × MemoryTables :=
  (((tables name).step call).1, Function.update tables name ((tables name).step call).2)

/-- That nothing has happened to `w` since but effects of one task. -/
structure LeadsTo (other : Nat) (w met : World) : Prop where
  reachable : w.Reachable .failing → met.Reachable .failing
  log : w.log <+: met.log
  past : ∀ i, i ≠ other → met.past i = w.past i

/-- What others make of a table, one task makes of it. -/
theorem exists_leadsTo (other : Nat) {tables : MemoryTables}
    (hmet : Fault.Disturbs askTables name w.tables tables) :
    ∃ met, w.LeadsTo other met ∧ met.tables = tables := by
  generalize hstart : w.tables = start at hmet
  induction hmet generalizing w with
  | still s => exact ⟨w, ⟨id, List.prefix_rfl, fun _ _ => rfl⟩, hstart⟩
  | @call s last call _ ih =>
      subst hstart
      let calm : Chance := ⟨default, fun _ => 0, none⟩
      obtain ⟨met, hleads, htables⟩ := @ih (w.after .failing calm other (.table name call)) rfl
      refine ⟨met, ⟨fun hreachable => hleads.reachable (hreachable.after calm other _), ?_, ?_⟩,
        htables⟩
      · exact (w.log_prefix_after .failing calm other _).trans hleads.log
      · intro i hi
        rw [hleads.past i hi, past_after_of_ne _ _ _ hi.symm]

/-- Where faults wait, a call to a table is answered as it may be in a world whose stores may fail,
once another task has had its effects. -/
theorem exists_leadsTo_answer (w : World) (faults : List Fault) (task other : Nat)
    (call : TableCall name.Row) :
    ∃ met chance, w.LeadsTo other met ∧
      (Fault.answer faults askTables name call w.tables).1 =
        met.reply .failing chance (.table name call) ∧
      (Fault.answer faults askTables name call w.tables).2.2 =
        (met.after .failing chance task (.table name call)).tables := by
  obtain ⟨tables, hdisturbs, hanswer⟩ :=
    @Fault.answer_cases _ askTables _ faults call w.tables
  obtain ⟨met, hleads, rfl⟩ := exists_leadsTo other hdisturbs
  rcases hanswer with ⟨hreply, htables⟩ | ⟨fault, hreply, htables⟩
  · exact ⟨met, ⟨default, fun _ => 0, none⟩, hleads, hreply, htables⟩
  · exact ⟨met, ⟨default, fun _ => 0, some fault⟩, hleads, hreply, htables⟩

end World

end CertAuthority
