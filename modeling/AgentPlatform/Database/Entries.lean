import AgentPlatform.Database.Executed

/-! # What the rows say

The part of a row that its `INSERT` writes and that no later statement changes, for the rows of all tables
but the events of runs. A row appears in a single step, which inserts exactly this.
-/

set_option autoImplicit false

namespace AgentPlatform

open Relational

inductive Entry
  | tenant (id : Uuid) (name : String)
  | apiKey (tenantId : Uuid) (keyPrefix keyHash : String)
  | tool (id tenantId : Uuid) (name : String) (inputSchema mockHandler : Value)
  | agent (id tenantId : Uuid) (name : Option String) (systemPrompt : String) (maxIterations : Int)
  | agentTool (tenantId agentId toolId : Uuid)
  | run (id tenantId agentId : Uuid) (inputMessages : Value) (idempotencyKey : Option String)

/-- The tenant that only authenticated requests write for. -/
def Entry.owner? : Entry → Option Uuid
  | .tenant .. | .apiKey .. => none
  | .tool _ tenantId .. | .agent _ tenantId .. | .agentTool tenantId .. | .run _ tenantId .. => some tenantId

def TenantRow.entry (row : TenantRow) : Entry := .tenant row.id row.name
def ApiKeyRow.entry (row : ApiKeyRow) : Entry := .apiKey row.tenantId row.keyPrefix row.keyHash
def ToolRow.entry (row : ToolRow) : Entry := .tool row.id row.tenantId row.name row.inputSchema row.mockHandler
def AgentRow.entry (row : AgentRow) : Entry := .agent row.id row.tenantId row.name row.systemPrompt row.maxIterations
def AgentToolRow.entry (row : AgentToolRow) : Entry := .agentTool row.tenantId row.agentId row.toolId
def RunRow.entry (row : RunRow) : Entry := .run row.id row.tenantId row.agentId row.inputMessages row.idempotencyKey

def Store.entries (s : Store) : List Entry :=
  s.tenants.map TenantRow.entry ++ s.apiKeys.map ApiKeyRow.entry ++ s.tools.map ToolRow.entry ++
    s.agents.map AgentRow.entry ++ s.agentTools.map AgentToolRow.entry ++ s.runs.map RunRow.entry

/-- What a successful statement inserts with this id. -/
def Statement.entry? (id : Uuid) : Statement → Option Entry
  | createTenant name => some (.tenant id name)
  | createApiKey tenantId keyPrefix keyHash => some (.apiKey tenantId keyPrefix keyHash)
  | createTool tenantId name inputSchema mockHandler => some (.tool id tenantId name inputSchema mockHandler)
  | insertAgent _ tenantId name systemPrompt maxIterations =>
      some (.agent id tenantId name systemPrompt maxIterations)
  | insertAgentTool _ tenantId agentId toolId => some (.agentTool tenantId agentId toolId)
  | insertRun _ tenantId agentId inputMessages idempotencyKey =>
      some (.run id tenantId agentId inputMessages idempotencyKey)
  | _ => none

namespace Database

/-- What the committed and the uncommitted rows say. -/
def entries (db : Database) : List Entry :=
  db.store.entries ++ db.pendingAgents.map (·.2.entry) ++ db.pendingAgentTools.map (·.2.entry) ++
    db.pendingRuns.map (·.2.entry)

variable {c : Choice} {db db' : Database} {entry : Entry} {tx : Uuid}

@[simp] theorem entries_committed (s : Store) : entries { store := s } = s.entries := by
  simp [entries]

theorem mem_entries : entry ∈ db.entries ↔ entry ∈ db.store.entries ∨
    (∃ pending ∈ db.pendingAgents, pending.2.entry = entry) ∨
    (∃ pending ∈ db.pendingAgentTools, pending.2.entry = entry) ∨
      ∃ pending ∈ db.pendingRuns, pending.2.entry = entry := by
  simp only [entries, List.mem_append, List.mem_map, or_assoc]

theorem entries_discard (member : entry ∈ (db.discard tx).entries) : entry ∈ db.entries := by
  rw [mem_entries] at member ⊢
  rcases member with committed | ⟨pending, kept, rfl⟩ | ⟨pending, kept, rfl⟩ | ⟨pending, kept, rfl⟩
  · exact .inl committed
  · exact .inr (.inl ⟨pending, (mem_without.mp kept).1, rfl⟩)
  · exact .inr (.inr (.inl ⟨pending, (mem_without.mp kept).1, rfl⟩))
  · exact .inr (.inr (.inr ⟨pending, (mem_without.mp kept).1, rfl⟩))

theorem entries_abort (member : entry ∈ (db.abort tx).entries) : entry ∈ db.entries := entries_discard member

theorem entries_rollback (member : entry ∈ (db.rollback tx).entries) : entry ∈ db.entries := entries_discard member

theorem entries_publish (member : entry ∈ (db.publish tx).entries) : entry ∈ db.entries := by
  have kept : (db.rollback tx).entries ⊆ db.entries := fun _ member => entries_rollback member
  rw [mem_entries] at member
  rcases member with committed | staged
  · simp only [publish, Store.entries, List.map_append, List.mem_append, List.mem_map, mem_own] at committed
    rw [mem_entries]
    simp only [Store.entries, List.mem_append, List.mem_map]
    grind
  · exact kept (mem_entries.mpr (.inr staged))

/-- A run keeps what it was inserted with. -/
theorem entries_updateRuns {selected : RunRow → Bool} {update : RunRow → RunRow}
    (keeps : ∀ row : RunRow, (update row).entry = row.entry)
    (member : entry ∈ (db.updateRuns selected update).2.entries) : entry ∈ db.entries := by
  have same : (db.store.runs.map fun row => if selected row then update row else row).map RunRow.entry =
      db.store.runs.map RunRow.entry := by
    rw [List.map_map]
    apply List.map_congr_left
    intro row _
    simp only [Function.comp_apply]
    split
    · exact keeps row
    · rfl
  simpa only [updateRuns, Store.updateRuns, entries, Store.entries, same] using member

/-- A tool keeps what it was inserted with. -/
theorem entries_deleteTool {tenantId toolId : Uuid} (member : entry ∈ (db.deleteTool c tenantId toolId).2.entries) :
    entry ∈ db.entries := by
  have same : (db.deleteTool c tenantId toolId).2.store.tools.map ToolRow.entry =
      db.store.tools.map ToolRow.entry := by
    rw [deleteTool, List.map_map]
    apply List.map_congr_left
    intro row _
    simp only [Function.comp_apply]
    split <;> rfl
  rw [mem_entries, Store.entries, same] at member
  exact mem_entries.mpr member

/-- A statement brings in no more than the row it inserts, and only if it succeeds. -/
theorem entries_executed {statement : Statement} {answer : Except SqlxError statement.Row}
    (ran : Executed c db statement answer db') (member : entry ∈ db'.entries) :
    entry ∈ db.entries ∨ statement.entry? c.id = some entry ∧ ∃ row, answer = .ok row := by
  cases ran with
  | unavailable failing =>
    left
    unfold lose at member
    split at member
    · exact entries_abort member
    · exact member
  | violatedWithin inside found alive healthy => exact .inl (entries_abort member)
  | commitAborted found aborted => exact .inl (entries_rollback member)
  | commit found alive => exact .inl (entries_publish member)
  | markRunFailed =>
    refine .inl (entries_updateRuns ?_ member)
    exact fun row => rfl
  | beginRunExecution =>
    refine .inl (entries_updateRuns ?_ member)
    exact fun row => rfl
  | finalizeRun =>
    refine .inl (entries_updateRuns ?_ member)
    exact fun row => rfl
  | deleteTool => exact .inl (entries_deleteTool member)
  | createTenant | createApiKey new tenant | createTool new | insertAgentTool found alive tool =>
    refine Or.imp_right (fun inserts => ⟨inserts, _, rfl⟩) ?_
    simp only [entries, Store.entries, List.map_append, List.map_cons, List.map_nil, List.mem_append,
      List.mem_singleton] at member ⊢
    apply Or.imp_right (congrArg some)
    tauto
  | insertAgent found alive same fits new | insertRun found alive same new unclaimed agent =>
    subst same
    refine Or.imp_right (fun inserts => ⟨inserts, _, rfl⟩) ?_
    simp only [entries, Store.entries, List.map_append, List.map_cons, List.map_nil, List.mem_append,
      List.mem_singleton] at member ⊢
    apply Or.imp_right (congrArg some)
    tauto
  | _ => exact .inl member

end Database

end AgentPlatform
