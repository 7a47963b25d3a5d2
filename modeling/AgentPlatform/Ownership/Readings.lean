import AgentPlatform.Ownership.History
import AgentPlatform.Ownership.Surrounded

/-! # What threads have read

An answer in the history of a thread was given by the rows that were committed at some point of the
path. Agents, bindings and the definitions of tools and runs last, so the answer still describes the
rows of every later state.
-/

set_option autoImplicit false

namespace AgentPlatform

open Interleaving Relational Database

variable {lib : Libraries} {config : Config} {events more : List (Event (platform lib config))}
  {pool last : Pool (platform lib config)} {i : ℕ} {tenantId agentId runId toolId : Uuid}

/-- A statement that a thread has executed, with its answer from the rows that were committed then. -/
theorem selected_of_performed {past later : List (Performed signature)} {statement : Statement} {row : statement.Row}
    (path : Path pool events last)
    (done : doneBy (M := platform lib config) i events = past ++ ⟨.sql statement, .ok row⟩ :: later)
    (reads : ∀ (s : Store) c, (s.select c statement).isSome = true) :
    ∃ before c after middle, events = before ++ .performed i c ⟨.sql statement, .ok row⟩ :: after ∧
      doneBy (M := platform lib config) i after = later ∧ Path pool before middle ∧
      Path middle (.performed i c ⟨.sql statement, .ok row⟩ :: after) last ∧
          middle.shared.db.store.select c statement = some row := by
  obtain ⟨before, c, after, rfl, _, tail⟩ := exists_cut_of_doneBy done
  obtain ⟨middle, next, earlier, step, rest⟩ := path.cut
  obtain ⟨answer, answered⟩ := Option.isSome_iff_exists.mp (reads middle.shared.db.store c)
  obtain ⟨rfl, _⟩ := answer_of_select (executed (execute_of_step step)) answered
  exact ⟨before, c, after, middle, rfl, tail, earlier, (Path.single step).append rest, answered⟩

theorem selected_of_mem {statement : Statement} {row : statement.Row} (path : Path pool events last)
    (done : ⟨.sql statement, .ok row⟩ ∈ doneBy (M := platform lib config) i events)
    (reads : ∀ (s : Store) c, (s.select c statement).isSome = true) : ∃ before after middle c,
      Path pool before middle ∧ Path middle after last ∧ middle.shared.db.store.select c statement = some row := by
  obtain ⟨past, later, done⟩ := List.append_of_mem done
  obtain ⟨before, c, _, middle, _, _, earlier, rest, answered⟩ := selected_of_performed path done reads
  exact ⟨before, _, middle, c, earlier, rest, answered⟩

/-- A query that was answered can be executed with this answer. -/
theorem executed_of_select {db : Database} {c : Choice} {statement : Statement} {row : statement.Row}
    (answered : db.store.select c statement = some row) :
    Executed { c with fail := false } db statement (.ok row) db :=
  .select rfl (by cases statement <;> exact answered)

/-! ## What lasts -/

theorem lasting_agent {agent : AgentRow} : Lasting fun s => agent ∈ s.agents :=
  fun _ _ evolves present => evolves.agents.subset present

theorem lasting_request (request : RunRow) : Lasting fun s => ∃ run ∈ s.runs, request.SameRequest run := by
  rintro s t evolves ⟨run, present, same⟩
  obtain ⟨later, there, moved⟩ := evolves.runs run present
  exact ⟨later, there, same.trans moved.sameRequest⟩

theorem lasting_binding (binding : AgentToolRow) : Lasting fun s => binding ∈ s.agentTools := by
  rintro s t evolves present
  obtain ⟨more, grown, _⟩ := evolves.agentTools
  rw [grown]
  exact List.mem_append_left _ present

/-- The bindings of an agent stay as they are. -/
theorem bindings_of_path {agent : AgentRow} (path : Path (started lib config) events pool)
    (later : Path pool more last) (present : agent ∈ pool.shared.db.store.agents) (owner : Uuid) :
    last.shared.db.store.bindings owner agent.id = pool.shared.db.store.bindings owner agent.id := by
  have lasting : Lasting fun s => agent ∈ s.agents ∧
      s.bindings owner agent.id = pool.shared.db.store.bindings owner agent.id := fun _ _ evolves ⟨there, same⟩ =>
    ⟨evolves.agents.subset there, (Store.bindings_evolve evolves there owner).trans same⟩
  exact (lasting.of_path path later ⟨present, rfl⟩).2

theorem Store.mem_bindings {s : Store} {binding : AgentToolRow} : binding ∈ s.bindings tenantId agentId ↔
    binding ∈ s.agentTools ∧ binding.tenantId = tenantId ∧ binding.agentId = agentId := by
  simp [Store.bindings]

/-! ## What was read -/

section Reads

variable (path : Path (started lib config) events pool)

include path

/-- The run that was read is the run with its id. -/
theorem run_of_read {run read : RunRow} (present : run ∈ pool.shared.db.store.runs)
    (got : ⟨.sql (.getRun tenantId run.id), .ok (some read)⟩ ∈ doneBy i events) : read.SameRequest run := by
  obtain ⟨_, _, state, _, first, rest, got⟩ := selected_of_mem path got fun _ _ => rfl
  obtain ⟨there, _, sameId⟩ := Store.findRun_some (Option.some.inj got)
  obtain ⟨later, stored, same⟩ := (lasting_request read).of_path first rest ⟨read, there, .refl read⟩
  have valid : Valid lib pool.shared := valid_of_started path
  rwa [valid.unique present stored (same.id.trans sameId)] at same

theorem agent_of_read {row : AgentRow} (got : ⟨.sql (.getAgent tenantId agentId), .ok (some row)⟩ ∈ doneBy i events) :
    row ∈ pool.shared.db.store.agents ∧ row.tenantId = tenantId ∧ row.id = agentId := by
  obtain ⟨_, _, state, _, first, rest, got⟩ := selected_of_mem path got fun _ _ => rfl
  obtain ⟨there, owned⟩ := Store.findAgent_some (Option.some.inj got)
  exact ⟨lasting_agent.of_path first rest there, owned⟩

theorem tool_of_read {row : ToolRow} (got : ⟨.sql (.getTool tenantId toolId), .ok (some row)⟩ ∈ doneBy i events) :
    pool.shared.db.store.HasTool row ∧ row.tenantId = tenantId ∧ row.id = toolId := by
  obtain ⟨_, _, state, _, first, rest, got⟩ := selected_of_mem path got fun _ _ => rfl
  obtain ⟨there, owned⟩ := Store.findTool_some (Option.some.inj got)
  exact ⟨(lasting_hasTool row).of_path first rest ⟨row, there, .refl row⟩, owned⟩

theorem binding_of_read {ids : List Uuid}
    (got : ⟨.sql (.getAgentToolIds tenantId agentId), .ok ids⟩ ∈ doneBy i events) (bound : toolId ∈ ids) :
    ∃ binding ∈ pool.shared.db.store.bindings tenantId agentId, binding.toolId = toolId := by
  obtain ⟨_, _, state, c, first, rest, got⟩ := selected_of_mem path got fun _ _ => rfl
  obtain ⟨binding, there, same⟩ := (mem_agentToolIds (executed_of_select got)).mp bound
  obtain ⟨present, owned⟩ := Store.mem_bindings.mp there
  exact ⟨binding, Store.mem_bindings.mpr ⟨(lasting_binding binding).of_path first rest present, owned⟩, same⟩

/-- A listed tool is in the table, belongs to the tenant and is bound. -/
theorem listed_of_read {rows : List ToolRow} {row : ToolRow}
    (got : ⟨.sql (.listAgentTools tenantId agentId), .ok rows⟩ ∈ doneBy i events) (member : row ∈ rows) :
    pool.shared.db.store.HasTool row ∧ row.tenantId = tenantId ∧
      ∃ binding ∈ pool.shared.db.store.bindings tenantId agentId, binding.toolId = row.id := by
  obtain ⟨_, _, state, c, first, rest, got⟩ := selected_of_mem path got fun _ _ => rfl
  obtain ⟨there, owned, binding, bound, same⟩ := mem_listAgentTools (executed_of_select got) member
  obtain ⟨present, mine⟩ := Store.mem_bindings.mp bound
  exact ⟨(lasting_hasTool row).of_path first rest ⟨row, there, .refl row⟩, owned, binding,
    Store.mem_bindings.mpr ⟨(lasting_binding binding).of_path first rest present, mine⟩, same⟩

/-- A task works with the agent and the messages of its run. -/
theorem Prepared.of_path {tools : List ToolRecord} {force : Bool} {run : RunRow} {past : List (Performed signature)}
    (present : run ∈ pool.shared.db.store.runs) (prepared : Prepared lib tenantId run.id agentId tools force past)
    (done : past ⊆ doneBy i events) : agentId = run.agentId ∧
      (∃ agent ∈ pool.shared.db.store.agents, agent.tenantId = tenantId ∧ agent.id = agentId) ∧
      (force = true ↔ run.ForcesInvalidCall) ∧
      ∃ rows, ⟨.sql (.listAgentTools tenantId agentId), .ok rows⟩ ∈ doneBy i events ∧
        tools = rows.map (toolFromRow lib) := by
  obtain ⟨read, row, rows, messages, got, found, rfl, listed, rfl, decoded, rfl⟩ := prepared.reads
  have same := run_of_read path present (done got)
  obtain ⟨there, owner, id⟩ := agent_of_read path (done found)
  refine ⟨id.trans same.agentId.symm, ⟨row, there, owner, rfl⟩, ?_, rows, done listed, rfl⟩
  have valid : Valid lib pool.shared := valid_of_started path
  obtain ⟨original, stated⟩ := valid.wellFormed.runs.messages run (mem_everything.mpr (.inl present))
  rw [← same.inputMessages, stated, ChatMessage.listFromValue_listToValue] at decoded
  obtain rfl := Option.some.inj decoded
  refine ⟨fun forces => ⟨original, stated, forces⟩, fun ⟨_, stated', forces⟩ => ?_⟩
  rwa [ChatMessage.listToValue_injective (stated.symm.trans stated')]

end Reads

end AgentPlatform
