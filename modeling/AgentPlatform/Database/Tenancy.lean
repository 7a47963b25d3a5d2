import AgentPlatform.Database.WellFormed

/-! # The rows of a tenant

Every row of the five tables behind the authenticated API belongs to one tenant. A statement that
names a tenant writes rows of that tenant only; a commit publishes the rows of its transaction.
-/

set_option autoImplicit false

namespace AgentPlatform

open Relational

/-- The rows of one tenant. -/
def Store.ofTenant (s : Store) (tenantId : Uuid) : Store where
  tools := s.tools.filter (·.tenantId == tenantId)
  agents := s.agents.filter (·.tenantId == tenantId)
  agentTools := s.agentTools.filter (·.tenantId == tenantId)
  runs := s.runs.filter (·.tenantId == tenantId)
  runTraces := s.runTraces.filter (·.tenantId == tenantId)

theorem Store.unboundTools_eq (s : Store) (tenantId agentId : Uuid) : s.unboundTools tenantId agentId =
    (s.activeTools tenantId).filter fun tool =>
      !(s.bindings tenantId agentId).any fun row => row.toolId == tool.id := by
  apply List.filter_congr
  intro tool member
  have owner := (List.mem_filter.mp member).2
  simp only [Bool.and_eq_true, beq_iff_eq] at owner
  rw [Store.bindings, List.any_filter, owner.1]

/-- The tenant that a statement is restricted to. -/
def Statement.tenant? : Statement → Option Uuid
  | createTool tenantId .. | listTools tenantId | deleteTool tenantId _ | insertAgent _ tenantId .. |
    toolExists _ tenantId _ | insertAgentTool _ tenantId .. | insertRun _ tenantId .. |
    findRunByKey _ tenantId .. | getAgent tenantId _ | getAgentToolIds tenantId _ |
    markRunFailed tenantId .. | beginRunExecution tenantId _ | getRun tenantId _ | getTrace tenantId _ |
    getTool tenantId _ | listAgentTools tenantId _ | findUnboundActiveTool tenantId _ |
    finalizeRun tenantId .. | appendEvent tenantId .. => some tenantId
  | createTenant _ | createApiKey .. | findActiveApiKeyByPrefix _ | begin | commit _ => none

namespace Database

/-- Everything that a transaction has inserted belongs to this tenant. -/
structure InsertedFor (db : Database) (tx tenantId : Uuid) : Prop where
  agents : ∀ row, (tx, row) ∈ db.pendingAgents → row.tenantId = tenantId
  agentTools : ∀ row, (tx, row) ∈ db.pendingAgentTools → row.tenantId = tenantId
  runs : ∀ row, (tx, row) ∈ db.pendingRuns → row.tenantId = tenantId

variable {db db' : Database} {c : Choice} {statement : Statement} {tenantId other : Uuid}

private theorem filter_append_other {α : Type} {rows more : List α} {tenant : α → Uuid}
    (foreign : ∀ row ∈ more, tenant row ≠ other) :
    (rows ++ more).filter (tenant · == other) = rows.filter (tenant · == other) := by
  rw [List.filter_append, List.append_right_eq_self, List.filter_eq_nil_iff]
  simpa using foreign

private theorem ofTenant_updateRuns (different : other ≠ tenantId) {selected : RunRow → Bool}
    {update : RunRow → RunRow} (keeps : ∀ row : RunRow, (update row).tenantId = row.tenantId)
    (chosen : ∀ row, selected row = true → row.tenantId = tenantId) :
    (db.updateRuns selected update).2.store.ofTenant other = db.store.ofTenant other := by
  have kept : (db.updateRuns selected update).2.store.runs.filter (·.tenantId == other) =
      db.store.runs.filter (·.tenantId == other) :=
    filter_update (fun row => by rw [keeps]) fun row hit => by simpa [chosen row hit] using Ne.symm different
  simp only [Store.ofTenant, kept]
  rfl

/-- A statement for one tenant leaves the rows of every other tenant as they are. -/
theorem ofTenant_executed {answer : Except SqlxError statement.Row}
    (ran : Executed c db statement answer db') (foreign : statement.tenant? ≠ some other)
    (commits : ∀ tx, statement = .commit tx → ∃ tenantId, other ≠ tenantId ∧ db.InsertedFor tx tenantId) :
    db'.store.ofTenant other = db.store.ofTenant other := by
  have apart {owner : Uuid} (restricted : statement.tenant? = some owner) : other ≠ owner :=
    fun same => foreign (same ▸ restricted)
  cases ran with
  | unavailable failing => rw [Database.lose]; split <;> rfl
  | @createTool owner _ _ _ new =>
    simp only [Store.ofTenant]
    rw [filter_append_other]
    simpa using (apart rfl).symm
  | @deleteTool owner toolId =>
    have kept : (db.deleteTool c owner toolId).2.store.tools.filter (·.tenantId == other) =
        db.store.tools.filter (·.tenantId == other) := by
      refine filter_update (fun row => rfl) fun row hit => ?_
      have different : other ≠ owner := apart rfl
      simp_all [different.symm]
    simp only [Store.ofTenant, kept]
    rfl
  | commit found alive =>
    obtain ⟨tenantId, different, agents, agentTools, runs⟩ := commits _ rfl
    simp only [Store.ofTenant, publish, rollback, discard]
    rw [filter_append_other, filter_append_other, filter_append_other]
    · intro row member same; exact different (same.symm.trans (runs row (mem_own.mp member)))
    · intro row member same; exact different (same.symm.trans (agentTools row (mem_own.mp member)))
    · intro row member same; exact different (same.symm.trans (agents row (mem_own.mp member)))
  | markRunFailed => exact ofTenant_updateRuns (apart rfl) (fun _ => rfl) fun row hit => by simp_all
  | beginRunExecution => exact ofTenant_updateRuns (apart rfl) (fun _ => rfl) fun row hit => by simp_all
  | finalizeRun => exact ofTenant_updateRuns (apart rfl) (fun _ => rfl) fun row hit => by simp_all
  | appendEvent new run =>
    simp only [Store.ofTenant]
    rw [filter_append_other]
    simpa using (apart rfl).symm
  | _ => rfl

end Database

end AgentPlatform
