import AgentPlatform.Database.WellFormed

/-! # How the committed rows evolve

Rows are never removed. Accounts, agents, bindings and events are only added, a tool can only be
marked as deleted, and a run moves along the four transitions between statuses.
-/

set_option autoImplicit false

namespace AgentPlatform

open Relational

/-- The transitions of a run. -/
inductive RunStatus.Next : RunStatus → RunStatus → Prop
  | start : Next .pending .running
  | refuse : Next .pending .failed
  | succeed : Next .running .success
  | fail : Next .running .failed

theorem RunStatus.Next.not_terminal {before after : RunStatus} (next : before.Next after) :
    before.terminal = false := by
  cases next <;> rfl

/-- What one statement can do to a run row. -/
def RunRow.Later (before after : RunRow) : Prop :=
  after = before ∨ before.SameRequest after ∧ before.status.Next after.status

theorem RunRow.Later.sameRequest {before after : RunRow} (later : before.Later after) :
    before.SameRequest after := by
  rcases later with rfl | ⟨same, _⟩
  · exact .refl _
  · exact same

theorem RunRow.Later.eq_of_terminal {before after : RunRow} (later : before.Later after)
    (terminal : before.status.terminal = true) : after = before := by
  rcases later with same | ⟨_, next⟩
  · exact same
  · simp [next.not_terminal] at terminal

/-- A tool row can only be marked as deleted. -/
structure ToolRow.Later (before after : ToolRow) : Prop where
  id : after.id = before.id
  tenantId : after.tenantId = before.tenantId
  name : after.name = before.name
  inputSchema : after.inputSchema = before.inputSchema
  mockHandler : after.mockHandler = before.mockHandler
  createdAt : after.createdAt = before.createdAt
  deletedAt : before.deletedAt ≠ none → after.deletedAt = before.deletedAt

theorem ToolRow.Later.refl (row : ToolRow) : row.Later row := ⟨rfl, rfl, rfl, rfl, rfl, rfl, fun _ => rfl⟩

structure Store.Evolves (s t : Store) : Prop where
  tenants : s.tenants <+: t.tenants
  apiKeys : s.apiKeys <+: t.apiKeys
  tools : ∀ tool ∈ s.tools, ∃ later ∈ t.tools, tool.Later later
  agents : s.agents <+: t.agents
  agentTools : ∃ more, t.agentTools = s.agentTools ++ more ∧
    ∀ binding ∈ more, ∀ agent ∈ s.agents, agent.id ≠ binding.agentId
  runs : ∀ run ∈ s.runs, ∃ later ∈ t.runs, run.Later later
  runTraces : s.runTraces <+: t.runTraces

theorem Store.Evolves.refl (s : Store) : s.Evolves s where
  tenants := List.prefix_refl _
  apiKeys := List.prefix_refl _
  tools tool member := ⟨tool, member, .refl tool⟩
  agents := List.prefix_refl _
  agentTools := ⟨[], by simp⟩
  runs run member := ⟨run, member, .inl rfl⟩
  runTraces := List.prefix_refl _

namespace Database

variable {db db' : Database} {c : Choice} {statement : Statement} {tx : Uuid}

@[simp] theorem lose_store : (db.lose statement).store = db.store := by
  unfold lose
  split <;> rfl

/-- The agents of uncommitted bindings are not committed yet. -/
theorem WellFormed.binding_fresh (wellFormed : db.WellFormed) {binding : AgentToolRow}
    (staged : (tx, binding) ∈ db.pendingAgentTools) {agent : AgentRow} (committed : agent ∈ db.store.agents) :
    agent.id ≠ binding.agentId := by
  obtain ⟨owner, pending, _, same⟩ := wellFormed.bindings.pendingAgent tx binding staged
  intro clash
  have apart := (List.pairwise_append.mp wellFormed.agents.ids).2.2 agent committed owner
    (List.mem_map_of_mem pending) agent.id rfl
  exact apart (by simp [clash, same])

theorem WellFormed.evolves_publish (wellFormed : db.WellFormed) (tx : Uuid) :
    db.store.Evolves (db.publish tx).store :=
  { Store.Evolves.refl db.store with
    agents := List.prefix_append ..
    agentTools := ⟨_, rfl, fun _ member _ committed => wellFormed.binding_fresh (mem_own.mp member) committed⟩
    runs := fun run member => ⟨run, List.mem_append_left _ member, .inl rfl⟩ }

theorem evolves_updateRuns (selected : RunRow → Bool) {update : RunRow → RunRow}
    (later : ∀ row ∈ db.store.runs, selected row = true → row.Later (update row)) :
    db.store.Evolves (db.updateRuns selected update).2.store := by
  refine { Store.Evolves.refl db.store with runs := ?_ }
  intro run member
  refine ⟨_, List.mem_map_of_mem member, ?_⟩
  split
  · next chosen => exact later run member chosen
  · exact .inl rfl

/-- One properly used statement. -/
theorem WellFormed.evolves {answer : Except SqlxError statement.Row} (wellFormed : db.WellFormed)
    (proper : db.Proper statement) (ran : Executed c db statement answer db') :
    db.store.Evolves db'.store := by
  cases ran with
  | unavailable failing => rw [lose_store]; exact .refl _
  | createTenant => exact { Store.Evolves.refl db.store with tenants := List.prefix_append .. }
  | createApiKey new tenant => exact { Store.Evolves.refl db.store with apiKeys := List.prefix_append .. }
  | createTool new =>
    exact { Store.Evolves.refl db.store with
      tools := fun tool member => ⟨tool, List.mem_append_left _ member, .refl tool⟩ }
  | deleteTool =>
    refine { Store.Evolves.refl db.store with tools := ?_ }
    intro tool member
    refine ⟨_, List.mem_map_of_mem member, ?_⟩
    split
    · next chosen =>
      refine { ToolRow.Later.refl tool with deletedAt := ?_ }
      intro deleted
      simp_all
    · exact .refl tool
  | commit found alive => exact wellFormed.evolves_publish _
  | markRunFailed =>
    refine evolves_updateRuns _ fun row member chosen => .inr ⟨⟨rfl, rfl, rfl, rfl, rfl, rfl⟩, ?_⟩
    simp only [Bool.and_eq_true, beq_iff_eq] at chosen
    rw [proper row member chosen.1 chosen.2]
    exact .refuse
  | beginRunExecution =>
    refine evolves_updateRuns _ fun row member chosen => .inr ⟨⟨rfl, rfl, rfl, rfl, rfl, rfl⟩, ?_⟩
    simp only [Bool.and_eq_true, beq_iff_eq] at chosen
    rw [chosen.2]
    exact .start
  | @finalizeRun tenantId runId status finalAnswer errorReason =>
    refine evolves_updateRuns _ fun row member chosen => .inr ⟨⟨rfl, rfl, rfl, rfl, rfl, rfl⟩, ?_⟩
    simp only [Bool.and_eq_true, beq_iff_eq] at chosen
    rw [proper.2 row member chosen.1 chosen.2]
    have terminal := proper.1
    cases status with
    | success => exact .succeed
    | failed => exact .fail
    | pending => cases terminal
    | running => cases terminal
  | appendEvent new run => exact { Store.Evolves.refl db.store with runTraces := List.prefix_append .. }
  | _ => exact .refl _

/-! ## Ownership of runs and transactions -/

/-- The run that a statement writes. -/
def writtenRun : Statement → Option Uuid
  | .markRunFailed _ runId _ | .beginRunExecution _ runId | .finalizeRun _ runId .. |
    .appendEvent _ runId .. => some runId
  | _ => none

/-- Two databases have the same row and the same events of a run. -/
structure SameRun (runId : Uuid) (before after : Database) : Prop where
  row : after.store.runs.filter (·.id == runId) = before.store.runs.filter (·.id == runId)
  events : after.store.runTraces.filter (·.runId == runId) = before.store.runTraces.filter (·.runId == runId)

/-- Two databases agree about a transaction. -/
structure SameTransaction (tx : Uuid) (before after : Database) : Prop where
  entry : after.findTransaction tx = before.findTransaction tx
  agents : own tx after.pendingAgents = own tx before.pendingAgents
  agentTools : own tx after.pendingAgentTools = own tx before.pendingAgentTools
  runs : own tx after.pendingRuns = own tx before.pendingRuns

theorem SameRun.refl (runId : Uuid) (db : Database) : SameRun runId db db := ⟨rfl, rfl⟩

theorem SameTransaction.refl (tx : Uuid) (db : Database) : SameTransaction tx db db := ⟨rfl, rfl, rfl, rfl⟩

theorem SameRun.symm {runId : Uuid} (same : SameRun runId db db') : SameRun runId db' db :=
    ⟨same.row.symm, same.events.symm⟩

theorem SameRun.trans {runId : Uuid} {db'' : Database} (first : SameRun runId db db')
    (second : SameRun runId db' db'') :
    SameRun runId db db'' := ⟨second.row.trans first.row, second.events.trans first.events⟩

theorem SameRun.mem {runId : Uuid} (same : SameRun runId db db') {row : RunRow} (id : row.id = runId) :
    row ∈ db'.store.runs ↔ row ∈ db.store.runs := by
  have := congrArg (row ∈ ·) same.row
  simpa [List.mem_filter, id] using this

theorem SameRun.traceRows {runId : Uuid} (same : SameRun runId db db') (tenantId : Uuid) :
    db'.store.traceRows tenantId runId = db.store.traceRows tenantId runId := by
  have split (s : Store) : s.traceRows tenantId runId =
      (s.runTraces.filter (·.runId == runId)).filter (·.tenantId == tenantId) := by
    rw [Store.traceRows, List.filter_filter]
  rw [split, split, same.events]

theorem sameRun_updateRuns {runId other : Uuid} (different : other ≠ runId) {selected : RunRow → Bool}
    {update : RunRow → RunRow} (keeps : ∀ row, (update row).id = row.id)
    (chosen : ∀ row, selected row = true → row.id = runId) :
    SameRun other db (db.updateRuns selected update).2 := by
  refine ⟨filter_update (fun row => by rw [keeps]) fun row hit => ?_, rfl⟩
  simpa [chosen row hit] using Ne.symm different

theorem sameRun_lose {runId : Uuid} : SameRun runId db (db.lose statement) := by
  constructor <;> rw [lose_store]

theorem WellFormed.sameRun_publish (wellFormed : db.WellFormed) {runId : Uuid}
    (lives : ∃ run ∈ db.store.runs, run.id = runId) : SameRun runId db (db.publish tx) := by
  refine ⟨?_, rfl⟩
  obtain ⟨run, committed, rfl⟩ := lives
  change (db.store.runs ++ own tx db.pendingRuns).filter _ = _
  rw [List.filter_append, List.append_right_eq_self, List.filter_eq_nil_iff]
  intro row staged clash
  exact (List.pairwise_append.mp wellFormed.runs.ids).2.2 run committed row
    (List.mem_map_of_mem (mem_own.mp staged)) run.id rfl (congrArg some (by simpa using clash))

/-- A statement only writes the run it names, unless it publishes runs. -/
theorem sameRun_executed {answer : Except SqlxError statement.Row} (ran : Executed c db statement answer db')
    {runId : Uuid} (foreign : writtenRun statement ≠ some runId)
    (publishes : ∀ tx, statement = .commit tx → SameRun runId db (db.publish tx)) : SameRun runId db db' := by
  cases ran with
  | unavailable failing => exact sameRun_lose
  | commit found alive => exact publishes _ rfl
  | @markRunFailed _ other _ =>
    refine sameRun_updateRuns (fun same => foreign (congrArg some same.symm)) (fun _ => rfl) ?_
    intro row chosen
    simp_all
  | @beginRunExecution _ other =>
    refine sameRun_updateRuns (fun same => foreign (congrArg some same.symm)) (fun _ => rfl) ?_
    intro row chosen
    simp_all
  | @finalizeRun _ other _ _ _ =>
    refine sameRun_updateRuns (fun same => foreign (congrArg some same.symm)) (fun _ => rfl) ?_
    intro row chosen
    simp_all
  | @appendEvent _ other _ _ new run =>
    refine ⟨rfl, ?_⟩
    have apart : other ≠ runId := fun same => foreign (congrArg some same)
    simp [apart]
  | _ => exact ⟨rfl, rfl⟩

theorem WellFormed.sameRun {answer : Except SqlxError statement.Row} (wellFormed : db.WellFormed)
    (ran : Executed c db statement answer db') {runId : Uuid}
    (lives : ∃ run ∈ db.store.runs, run.id = runId) (foreign : writtenRun statement ≠ some runId) :
    SameRun runId db db' :=
  sameRun_executed ran foreign fun _ _ => wellFormed.sameRun_publish lives

/-- The tools after a statement: the same ones, one more, or the same ones with one more of them deleted. -/
theorem tools_executed {answer : Except SqlxError statement.Row} (ran : Executed c db statement answer db') :
    db'.store.tools = db.store.tools ∨
    (∃ tenantId name inputSchema mockHandler, statement = .createTool tenantId name inputSchema mockHandler ∧
      db'.store.tools = db.store.tools ++ [⟨c.id, tenantId, name, inputSchema, mockHandler, c.now, none⟩]) ∨
    ∃ tenantId toolId, (⟨statement, answer⟩ : (s : Statement) × Except SqlxError s.Row) =
        ⟨.deleteTool tenantId toolId, (db.deleteTool c tenantId toolId).1⟩ ∧
      db'.store.tools = (db.deleteTool c tenantId toolId).2.store.tools := by
  cases ran with
  | unavailable failing => rw [lose_store]; exact .inl rfl
  | @createTool tenantId name inputSchema mockHandler new =>
    exact .inr (.inl ⟨tenantId, name, inputSchema, mockHandler, rfl, rfl⟩)
  | @deleteTool tenantId toolId => exact .inr (.inr ⟨tenantId, toolId, rfl, rfl⟩)
  | _ => exact .inl rfl

theorem sameTransaction_abort {other : Uuid} (different : other ≠ tx) :
    SameTransaction other db (db.abort tx) :=
  ⟨by rw [findTransaction_abort, if_neg different], own_without different, own_without different,
    own_without different⟩

theorem sameTransaction_rollback {other : Uuid} (different : other ≠ tx) :
    SameTransaction other db (db.rollback tx) :=
  ⟨findTransaction_rollback different, own_without different, own_without different, own_without different⟩

/-- A statement leaves the transactions of others alone. -/
theorem sameTransaction {answer : Except SqlxError statement.Row} (ran : Executed c db statement answer db')
    {other : Uuid} (lives : (db.findTransaction other).isSome) (foreign : statement.transaction? ≠ some other) :
    SameTransaction other db db' := by
  have apart {tx : Uuid} (inside : statement.transaction? = some tx) : other ≠ tx := by
    rintro rfl; exact foreign inside
  have staged {α : Type} {tx : Uuid} {pending : List (Uuid × α)} {row : α} (different : other ≠ tx) :
      own other (pending ++ [(tx, row)]) = own other pending := by
    rw [own_append, own_singleton_other different.symm, List.append_nil]
  cases ran with
  | unavailable failing =>
    unfold lose
    split
    · next tx inside => exact sameTransaction_abort (apart inside)
    · exact .refl _ _
  | violatedWithin inside found alive healthy => exact sameTransaction_abort (apart inside)
  | begin new => exact ⟨findTransaction_begin lives, rfl, rfl, rfl⟩
  | insertAgent found alive same fits new => exact ⟨rfl, staged (apart rfl), rfl, rfl⟩
  | insertAgentTool found alive tool => exact ⟨rfl, rfl, staged (apart rfl), rfl⟩
  | insertRun found alive same new unclaimed agent => exact ⟨rfl, rfl, rfl, staged (apart rfl)⟩
  | commitAborted found aborted => exact sameTransaction_rollback (apart rfl)
  | commit found alive =>
    have kept : SameTransaction other db (db.rollback _) := sameTransaction_rollback (apart rfl)
    exact ⟨kept.entry, kept.agents, kept.agentTools, kept.runs⟩
  | _ => exact ⟨rfl, rfl, rfl, rfl⟩

end Database

end AgentPlatform
