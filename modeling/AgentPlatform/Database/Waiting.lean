import AgentPlatform.Database.Answers
import AgentPlatform.Database.WellFormed
import Mathlib.Algebra.GroupWithZero.Nat
import Mathlib.Data.List.Nodup
import Mathlib.Data.List.Range

/-! # Waiting for another transaction

Only three statements may have to wait: an `INSERT` whose row would violate a unique index if another
transaction, which is still open, committed. What follows says which transaction that is, given a
generated id that is not in use.
-/

set_option autoImplicit false

namespace AgentPlatform

open Relational

/-- Among finitely many ids some id is missing. -/
theorem exists_unused {width : ℕ} (used : List (BitVec width)) (few : used.length < 2 ^ width) : ∃ id, id ∉ used := by
  by_contra all
  have inside : (List.range (2 ^ width)).map (BitVec.ofNat width) ⊆ used := by
    intro id _
    by_contra new
    exact all ⟨id, new⟩
  have distinct : ((List.range (2 ^ width)).map (BitVec.ofNat width)).Nodup := by
    refine List.Nodup.map_on (fun m mBound n nBound same => ?_) List.nodup_range
    have values := congrArg BitVec.toNat same
    simpa [Nat.mod_eq_of_lt (List.mem_range.mp mBound), Nat.mod_eq_of_lt (List.mem_range.mp nBound)] using values
  have many := distinct.length_le_of_subset inside
  rw [List.length_map, List.length_range] at many
  omega

namespace Database

variable {c : Choice} {db db' : Database} {statement : Statement} {tx : Uuid}

/-- The open transactions and the uncommitted rows that generated ids may collide with. -/
def occupied (db : Database) : List Uuid :=
  db.transactions.map Prod.fst ++ db.pendingAgents.map (·.2.id) ++ db.pendingRuns.map (·.2.id)

/-- The statement waits for the end of this transaction. -/
def WaitsFor (db : Database) (tx : Uuid) : Statement → Prop
  | .insertAgent tx' tenantId name _ _ => tx ≠ tx' ∧ ∃ row ∈ own tx db.pendingAgents, ∃ text,
      name = some text ∧ row.activeName = some (tenantId, text)
  | .insertAgentTool tx' tenantId agentId toolId => tx ≠ tx' ∧ ∃ row ∈ own tx db.pendingAgentTools,
      row.tenantId = tenantId ∧ row.agentId = agentId ∧ row.toolId = toolId
  | .insertRun tx' tenantId agentId _ idempotencyKey => tx ≠ tx' ∧ ∃ row ∈ own tx db.pendingRuns, ∃ key,
      idempotencyKey = some key ∧ row.scope = some (tenantId, agentId, key)
  | _ => False

theorem within_stuck {α : Type} {body : Transaction → Option (Except SqlxError (α × Database))}
    (stuck : db.within tx body = none) :
    ∃ transaction, db.findTransaction tx = some transaction ∧ transaction.aborted = false ∧
      body transaction = none := by
  unfold within at stuck
  split at stuck
  · cases stuck
  · next transaction found =>
    split at stuck
    · cases stuck
    · next alive => exact ⟨transaction, found, by simpa using alive, Option.map_eq_none_iff.mp stuck⟩

private theorem mem_other {α : Type} {pending : List (Uuid × α)} {check : Uuid × α → Bool}
    (found : (without tx pending).any check = true) :
    ∃ other, other ≠ tx ∧ ∃ row ∈ own other pending, check (other, row) = true := by
  obtain ⟨⟨other, row⟩, member, checked⟩ := List.any_eq_true.mp found
  obtain ⟨staged, different⟩ := mem_without.mp member
  exact ⟨other, different, row, mem_own.mpr staged, checked⟩

private theorem waits_insertAgent {tenantId : Uuid} {name : Option String} {systemPrompt : String}
    {maxIterations : Int} (new : c.id ∉ db.occupied)
    (stuck : db.insertAgent c tx tenantId name systemPrompt maxIterations = none) :
    ∃ other, db.WaitsFor other (.insertAgent tx tenantId name systemPrompt maxIterations) := by
  obtain ⟨transaction, _, _, body⟩ := within_stuck stuck
  dsimp only at body
  split_ifs at body with fits taken waiting clash blocked
  · obtain ⟨other, _, row, staged, same⟩ := mem_other waiting
    exact absurd (by simp [occupied]; exact .inr (.inl ⟨other, row, mem_own.mp staged, by simpa using same⟩)) new
  · obtain ⟨other, different, row, staged, same⟩ := mem_other blocked
    simp only [AgentRow.activeName, ↓reduceIte, Bool.and_eq_true, bne_iff_ne, ne_eq, beq_iff_eq,
      Option.map_eq_none_iff] at same
    obtain ⟨text, rfl⟩ := Option.ne_none_iff_exists'.mp same.1
    exact ⟨other, different, row, staged, text, rfl, same.2⟩

private theorem waits_insertRun {tenantId agentId : Uuid} {inputMessages : Value} {idempotencyKey : Option String}
    (new : c.id ∉ db.occupied) (stuck : db.insertRun c tx tenantId agentId inputMessages idempotencyKey = none) :
    ∃ other, db.WaitsFor other (.insertRun tx tenantId agentId inputMessages idempotencyKey) := by
  obtain ⟨transaction, _, _, body⟩ := within_stuck stuck
  dsimp only at body
  split_ifs at body with unfit taken waiting clash blocked
  · obtain ⟨other, _, row, staged, same⟩ := mem_other waiting
    exact absurd (by simp [occupied]; exact .inr (.inr ⟨other, row, mem_own.mp staged, by simpa using same⟩)) new
  · obtain ⟨other, different, row, staged, same⟩ := mem_other blocked
    simp only [RunRow.scope, Bool.and_eq_true, bne_iff_ne, ne_eq, beq_iff_eq, Option.map_eq_none_iff] at same
    obtain ⟨key, rfl⟩ := Option.ne_none_iff_exists'.mp same.1
    exact ⟨other, different, row, staged, key, rfl, same.2⟩

/-- A statement that cannot be executed waits for the end of a transaction. -/
theorem waits_of_stuck (new : c.id ∉ db.occupied) (stuck : db.execute c statement = none) :
    ∃ tx, db.WaitsFor tx statement := by
  unfold execute at stuck
  split at stuck
  · cases stuck
  cases statement with
  | begin =>
    simp only [begin] at stuck
    split at stuck
    · next used =>
      have free : db.findTransaction c.id = none := by
        refine List.lookup_eq_none_iff.mpr fun entry member => bne_iff_ne.mpr fun same => new ?_
        simp only [occupied, List.mem_append, List.mem_map]
        exact .inl (.inl ⟨entry, member, same.symm⟩)
      rw [free] at used
      cases used
    · cases stuck
  | insertAgent tx tenantId name systemPrompt maxIterations => exact waits_insertAgent new stuck
  | insertRun tx tenantId agentId inputMessages idempotencyKey => exact waits_insertRun new stuck
  | insertAgentTool tx tenantId agentId toolId =>
    obtain ⟨transaction, _, _, body⟩ := within_stuck stuck
    dsimp only at body
    split_ifs at body with taken blocked
    obtain ⟨other, different, row, staged, same⟩ := mem_other blocked
    exact ⟨other, different, row, staged, by simpa [and_assoc] using same⟩
  | toolExists tx tenantId toolId =>
    obtain ⟨_, _, _, body⟩ := within_stuck stuck
    cases body
  | findRunByKey tx tenantId agentId idempotencyKey =>
    obtain ⟨_, _, _, body⟩ := within_stuck stuck
    cases body
  | _ => cases stuck

/-! ## Counting -/

theorem occupied_rollback : (db.rollback tx).occupied.length ≤ db.occupied.length := by
  simp only [occupied, rollback, discard, List.length_append, List.length_map]
  have transactions := List.length_filter_le (fun entry : Uuid × Transaction => decide (entry.1 ≠ tx)) db.transactions
  have agents := List.length_filter_le (fun entry : Uuid × AgentRow => decide (entry.1 ≠ tx)) db.pendingAgents
  have runs := List.length_filter_le (fun entry : Uuid × RunRow => decide (entry.1 ≠ tx)) db.pendingRuns
  exact Nat.add_le_add (Nat.add_le_add transactions agents) runs

theorem occupied_abort : (db.abort tx).occupied.length ≤ db.occupied.length := by
  simp only [occupied, abort, discard, List.length_append, List.length_map]
  have agents := List.length_filter_le (fun entry : Uuid × AgentRow => decide (entry.1 ≠ tx)) db.pendingAgents
  have runs := List.length_filter_le (fun entry : Uuid × RunRow => decide (entry.1 ≠ tx)) db.pendingRuns
  exact Nat.add_le_add (Nat.add_le_add_left agents _) runs

/-- A statement occupies at most one more id. -/
theorem occupied_executed {answer : Except SqlxError statement.Row} (ran : Executed c db statement answer db') :
    db'.occupied.length ≤ db.occupied.length + 1 := by
  cases ran with
  | unavailable failing =>
    unfold lose
    split
    · exact occupied_abort.trans (Nat.le_add_right _ 1)
    · exact Nat.le_add_right _ 1
  | violatedWithin inside found alive healthy => exact occupied_abort.trans (Nat.le_add_right _ 1)
  | commitAborted found aborted => exact occupied_rollback.trans (Nat.le_add_right _ 1)
  | commit found alive => exact occupied_rollback.trans (Nat.le_add_right _ 1)
  | begin new =>
    simp only [occupied, List.map_append, List.length_append, List.length_map, List.length_singleton]
    omega
  | insertAgent found alive same fits new =>
    simp only [occupied, List.map_append, List.length_append, List.length_map, List.length_singleton]
    omega
  | insertRun found alive same new unclaimed agent =>
    simp only [occupied, List.map_append, List.length_append, List.length_map, List.length_singleton]
    omega
  | _ => exact Nat.le_add_right _ 1

end Database

end AgentPlatform
