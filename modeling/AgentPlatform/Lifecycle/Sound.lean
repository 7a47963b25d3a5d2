import AgentPlatform.Lifecycle.Stage

/-! # Rows and events of a run

The columns and the trace of a run row are those of a reachable stage, and every tool call in
them was authorised. This is what any statement of the server that writes a run preserves.
-/

set_option autoImplicit false

namespace AgentPlatform

open Relational Database

variable (lib : Libraries)

def TraceRow.event (row : TraceRow) : EventType × Value := (row.type, row.payload)

/-- A JSON schema accepts an instance. -/
def Libraries.Accepts (inputSchema arguments : Value) : Prop :=
  ∃ isValid, lib.compile inputSchema = some isValid ∧ isValid arguments = true

/-- A tool call that an agent was allowed to make, with the tool it names and its result. -/
structure Store.Authorised (s : Store) (tenantId agentId : Uuid) (tool : ToolRecord)
    (arguments result : Value) : Prop where
  row : ∃ row ∈ s.tools, row.tenantId = tenantId ∧ row.id = tool.id ∧ row.name = tool.name ∧
    lib.Accepts (lib.decodeJson row.inputSchema) arguments ∧ row.mockHandler.get "type" = some (.string "static") ∧
    ∃ response, row.mockHandler.get "response" = some response ∧ result = lib.decodeJson response
  binding : ∃ binding ∈ s.agentTools, binding.tenantId = tenantId ∧ binding.agentId = agentId ∧
    binding.toolId = tool.id

variable {lib}

theorem validateToolArguments_ok {inputSchema arguments : Value} :
    validateToolArguments lib inputSchema arguments = .ok () ↔ lib.Accepts inputSchema arguments := by
  unfold validateToolArguments Libraries.Accepts
  cases lib.compile inputSchema with
  | none => simp
  | some isValid => by_cases accepts : isValid arguments = true <;> simp [accepts]

/-- A later reading of a tool gives the same schema. -/
theorem ToolRow.Later.schema {tool later : ToolRow} (since : tool.Later later) :
    (toolFromRow lib later).inputSchema = (toolFromRow lib tool).inputSchema :=
      congrArg lib.decodeJson since.inputSchema

theorem ToolRow.Later.handler {tool later : ToolRow} (since : tool.Later later) :
    (toolFromRow lib later).mockHandler = (toolFromRow lib tool).mockHandler :=
      congrArg lib.decodeJson since.mockHandler

theorem Store.Authorised.evolve {s t : Store} {tenantId agentId : Uuid} {tool : ToolRecord}
    {arguments result : Value} (authorised : s.Authorised lib tenantId agentId tool arguments result)
    (evolves : s.Evolves t) : t.Authorised lib tenantId agentId tool arguments result where
  row := by
    obtain ⟨row, present, tenant, id, name, accepts, static, response⟩ := authorised.row
    obtain ⟨later, found, same⟩ := evolves.tools row present
    refine ⟨later, found, same.tenantId.trans tenant, same.id.trans id, same.name.trans name, ?_, ?_, ?_⟩
    · rwa [same.inputSchema]
    · rwa [same.mockHandler]
    · rwa [same.mockHandler]
  binding := by
    obtain ⟨binding, present, same⟩ := authorised.binding
    obtain ⟨more, grown, _⟩ := evolves.agentTools
    exact ⟨binding, grown ▸ List.mem_append_left _ present, same⟩

variable (lib)

/-- The columns of the row are those of this stage. -/
structure RunRow.Shows (run : RunRow) (stage : Stage) : Prop where
  status : run.status = stage.status
  finalAnswer : run.finalAnswer = stage.finalAnswer
  errorReason : run.errorReason = stage.errorReason
  started : run.startedAt.isSome = stage.hasStarted
  finished : run.finishedAt.isSome = stage.hasFinished

/-- The columns that a run has in this stage. -/
def Stage.columns (stage : Stage) : RunStatus × Option String × Option String × Bool × Bool :=
  (stage.status, stage.finalAnswer, stage.errorReason, stage.hasStarted, stage.hasFinished)

theorem RunRow.Shows.later {run : RunRow} {stage later : Stage} (shows : run.Shows stage)
    (same : later.columns = stage.columns) : run.Shows later := by
  simp only [Stage.columns, Prod.mk.injEq] at same
  obtain ⟨status, finalAnswer, errorReason, started, finished⟩ := same
  exact ⟨shows.status.trans status.symm, shows.finalAnswer.trans finalAnswer.symm,
    shows.errorReason.trans errorReason.symm, shows.started.trans started.symm, shows.finished.trans finished.symm⟩

/-- The row is in this stage of its course. -/
structure RunRow.Sound (s : Store) (run : RunRow) (stage : Stage) : Prop where
  columns : run.Shows stage
  events : (s.traceRows run.tenantId run.id).map TraceRow.event = stage.events
  reachable : ∃ agent ∈ s.agents, agent.tenantId = run.tenantId ∧ agent.id = run.agentId ∧
    stage.Reachable agent.maxIterations.toNat
  authorised : ∀ i round, stage.rounds[i]? = some round →
    s.Authorised lib run.tenantId run.agentId round.tool (iterationArguments i) round.result

variable {lib}

/-- A run that nobody writes stays in its stage. -/
theorem RunRow.Sound.keep {db db' : Database} {run : RunRow} {stage : Stage}
    (sound : run.Sound lib db.store stage) (evolves : db.store.Evolves db'.store)
    (same : SameRun run.id db db') : run.Sound lib db'.store stage where
  columns := sound.columns
  events := by rw [same.traceRows, sound.events]
  reachable := by
    obtain ⟨agent, present, same⟩ := sound.reachable
    exact ⟨agent, evolves.agents.subset present, same⟩
  authorised i round found := (sound.authorised i round found).evolve evolves

/-- A run right after the commit that creates it. -/
theorem RunRow.Fresh.sound {s : Store} {run : RunRow} (fresh : run.Fresh)
    (silent : s.traceRows run.tenantId run.id = [])
    (agent : ∃ agent ∈ s.agents, agent.tenantId = run.tenantId ∧ agent.id = run.agentId) :
    run.Sound lib s .created where
  columns :=
    { status := fresh.status
      finalAnswer := fresh.finalAnswer
      errorReason := fresh.errorReason
      started := by rw [fresh.startedAt]; rfl
      finished := by rw [fresh.finishedAt]; rfl }
  events := by rw [silent]; rfl
  reachable := by
    obtain ⟨agent, present, tenantId, id⟩ := agent
    exact ⟨agent, present, tenantId, id, .refl⟩
  authorised i round found := by simp [Stage.rounds] at found

/-- The agent of a run, with its number of iterations. -/
def Store.HasAgent (s : Store) (run : RunRow) (maxIterations : ℕ) : Prop :=
  ∃ agent ∈ s.agents, agent.tenantId = run.tenantId ∧ agent.id = run.agentId ∧
    agent.maxIterations.toNat = maxIterations

/-- The next stage, after a statement that writes columns or appends an event. -/
theorem RunRow.Sound.next {s t : Store} {run after : RunRow} {stage later : Stage}
    (sound : run.Sound lib s stage) (evolves : s.Evolves t) (same : run.SameRequest after)
    (moves : ∀ maxIterations, s.HasAgent run maxIterations → stage.Next maxIterations later)
    (columns : after.Shows later)
    (events : (t.traceRows run.tenantId run.id).map TraceRow.event = later.events)
    (authorised : ∀ i round, later.rounds[i]? = some round → stage.rounds[i]? = some round ∨
      t.Authorised lib run.tenantId run.agentId round.tool (iterationArguments i) round.result) :
    after.Sound lib t later where
  columns := columns
  events := by rw [same.tenantId, same.id]; exact events
  reachable := by
    obtain ⟨agent, present, tenantId, id, reached⟩ := sound.reachable
    refine ⟨agent, evolves.agents.subset present, ?_, ?_, ?_⟩
    · rw [same.tenantId]; exact tenantId
    · rw [same.agentId]; exact id
    · exact reached.tail (moves _ ⟨agent, present, tenantId, id, rfl⟩)
  authorised i round found := by
    rw [same.tenantId, same.agentId]
    rcases authorised i round found with old | new
    · exact (sound.authorised i round old).evolve evolves
    · exact new

end AgentPlatform
