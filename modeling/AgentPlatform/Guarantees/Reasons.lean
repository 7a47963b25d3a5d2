import AgentPlatform.Guarantees.Forced

/-! # The reasons of failed runs

A run fails for one of the reasons of the specification, except that the loop passes the text of any
bad request on: the text for a schema that does not compile is none of them. Creating a tool does not
compile its schema, so such a tool can be stored, bound and called.
-/

set_option autoImplicit false

namespace AgentPlatform

open Interleaving Relational Database Scenario

variable {lib : Libraries} {config : Config} {events : List (Event (platform lib config))}
  {pool : Pool (platform lib config)} {tenantId runId : Uuid} {past : List (Performed signature)} {reason : String}

/-- The run error reasons of the specification. -/
def runErrorReasons : List String :=
  ["scheduler_capacity_exceeded", "tenant_concurrency_limit_exceeded", "agent_not_found",
    "tool_not_allowed_for_agent",
    "cross_tenant_tool_call_rejected", "invalid_tool_arguments", "tool_deleted", "mock_handler_failed", "llm_failed",
    "retry_exhausted", "max_iterations_exceeded", "internal_error"]

/-- The reason that `validate_tool_arguments` gives for a schema that does not compile. -/
abbrev uncompiledReason : String := "invalid input schema"

/-! ## Which reasons there are -/

private theorem capacity_named : ∀ reason ∈ capacityReasons, reason ∈ runErrorReasons := by decide

private theorem rejection_named : ∀ reason ∈ rejectionReasons, reason ∈ runErrorReasons ∨
    reason = uncompiledReason := by decide

theorem Stage.SettledBy.named {maxIterations : ℕ} {rounds : List Round} {decision : Option LlmDecision}
    {verdict : Verdict} (settled : SettledBy maxIterations rounds decision verdict)
    (given : verdict.errorReason = some reason) : reason ∈ runErrorReasons ∨ reason = uncompiledReason := by
  cases settled with
  | exhausted full =>
    cases given
    exact .inl (by decide)
  | answered room two => cases given
  | rejected room fits called member =>
    cases given
    exact rejection_named reason member

/-- A stage names a reason of the specification, or the one for schemas. -/
theorem Stage.Within.named {maxIterations : ℕ} {stage : Stage} (within : stage.Within maxIterations)
    (given : stage.errorReason = some reason) : reason ∈ runErrorReasons ∨ reason = uncompiledReason := by
  cases stage with
  | refused other | refusalLogged other | refusalEnded other =>
    cases given
    exact .inl (capacity_named reason within)
  | settled rounds decision verdict | ended rounds decision verdict => exact SettledBy.named within given
  | _ => cases given

/-- A run that fails because of a schema has called a tool of its agent that has one that does not compile. -/
theorem FailsFor.uncompiled (fails : FailsFor lib tenantId runId past reason) (schema : reason = uncompiledReason) :
    ∃ agentId toolId tools force iteration decision arguments before row ids,
      past = before ++ called tenantId runId iteration decision :: [⟨.sql (.getTool tenantId toolId), .ok (some row)⟩,
        ⟨.sql (.getAgentToolIds tenantId agentId), .ok ids⟩] ∧
      Prepared lib tenantId runId agentId tools force before ∧
      Picked tenantId runId agentId tools force before iteration decision ∧
      decision.kind = .toolCall toolId arguments ∧
      row.deletedAt = none ∧ toolId ∈ ids ∧ lib.compile (toolFromRow lib row).inputSchema = none := by
  cases fails with
  | exhausted => cases (by decide : "max_iterations_exceeded" ≠ uncompiledReason) schema
  | broken failing => cases (by decide : "internal_error" ≠ uncompiledReason) schema
  | rejected decided kind refused =>
    obtain ⟨before, iteration, rfl, prepared, picked⟩ := decided
    cases refused with
    | missing | unbound other => cases (by decide : "tool_not_allowed_for_agent" ≠ uncompiledReason) schema
    | deleted gone => cases (by decide : "tool_deleted" ≠ uncompiledReason) schema
    | invalid active bound compiled rejects => cases (by decide : "invalid_tool_arguments" ≠ uncompiledReason) schema
    | @uncompiled row ids active bound bad =>
      exact ⟨_, _, _, _, iteration, _, _, before, row, ids, rfl, prepared, picked, kind, active, bound, bad⟩

variable (lib) in
/-- Every tool that is bound to the agent of the run has a schema that compiles. -/
def Store.BoundSchemasCompile (s : Store) (run : RunRow) : Prop :=
  ∀ tool ∈ s.tools, tool.tenantId = run.tenantId →
    (∃ binding ∈ s.bindings run.tenantId run.agentId, binding.toolId = tool.id) →
      lib.compile (toolFromRow lib tool).inputSchema ≠ none

/-- Unless the run forces a call, the first tool in the list that its task got has a schema that compiles, or was never
read as a tool that is not deleted. -/
def RunRow.FirstSchemaCompiles (run : RunRow) (events : List (Event (platform lib config)))
    (pool : Pool (platform lib config)) : Prop :=
  ¬ run.ForcesInvalidCall → ∀ i row rest, Executes run.id pool i →
    ⟨.sql (.listAgentTools run.tenantId run.agentId), .ok (row :: rest)⟩ ∈ doneBy i events →
      (∃ read, ⟨.sql (.getTool run.tenantId row.id), .ok (some read)⟩ ∈ doneBy i events ∧ read.deletedAt = none) →
        lib.compile (toolFromRow lib row).inputSchema ≠ none

/-- The first tool in the list is one of the tools of the agent. -/
theorem Store.BoundSchemasCompile.first (path : Path (started lib config) events pool) {run : RunRow}
    (schemas : pool.shared.db.store.BoundSchemasCompile lib run) : run.FirstSchemaCompiles events pool := by
  intro _ i row rest _ listed _
  obtain ⟨⟨tool, there, since⟩, owner, binding, found, same⟩ := listed_of_read path listed List.mem_cons_self
  rw [← since.schema]
  exact schemas tool there (since.tenantId.trans owner) ⟨binding, found, same.trans since.id.symm⟩

/-- Rows of one tool, read at different times, have one schema. -/
theorem schema_of_reads (path : Path (started lib config) events pool) {row read : ToolRow}
    (listed : pool.shared.db.store.HasTool row) (known : pool.shared.db.store.HasTool read)
    (same : row.id = read.id) : (toolFromRow lib row).inputSchema = (toolFromRow lib read).inputSchema := by
  obtain ⟨tool, there, since⟩ := listed
  obtain ⟨other, present, since'⟩ := known
  have valid : Valid lib pool.shared := valid_of_started path
  obtain rfl :=
    valid.wellFormed.catalogue.ids.eq there present (congrArg some (since.id.trans (same.trans since'.id.symm))) rfl
  exact since.schema.symm.trans since'.schema

theorem reason_ne_uncompiled (path : Path (started lib config) events pool) {run : RunRow}
    (present : run ∈ pool.shared.db.store.runs) (schemas : run.FirstSchemaCompiles events pool) :
    run.errorReason ≠ some uncompiledReason := by
  intro failed
  obtain ⟨i, c, ⟨op, answer⟩, status, finalAnswer, member, rfl⟩ :=
    event_of_errorReason path present failed (by decide)
  obtain ⟨before, after, rfl⟩ := List.append_of_mem member
  obtain ⟨tenantId, runId, ⟨rfl, rfl⟩, executes, justified⟩ := justified_of_performed path True.intro
  obtain ⟨agentId, toolId, tools, force, iteration, decision, arguments, earlier, row, ids, history, prepared, picked,
    kind, active, bound, bad⟩ := (justified _ rfl).uncompiled rfl
  have later := doneBy_subset i before (.performed i c ⟨_, answer⟩ :: after)
  have reads : [⟨.sql (.getTool run.tenantId toolId), .ok (some row)⟩,
      ⟨.sql (.getAgentToolIds run.tenantId agentId), .ok ids⟩] ⊆ doneBy i before := by
    rw [history]
    exact List.Subset.trans (List.subset_cons_self ..) (List.subset_append_right ..)
  have settled : earlier ⊆ doneBy i before := by
    rw [history]
    exact List.subset_append_left ..
  obtain ⟨rfl, _, forces_iff, rows, listed, rfl⟩ := prepared.of_path path present (List.Subset.trans settled later)
  by_cases forces : run.ForcesInvalidCall
  · -- the tool of a forced call is not bound, and a forced run has executed no other call
    have done := doneBy_append i before
        (.performed i c ⟨.sql (.finalizeRun run.tenantId run.id status finalAnswer _), answer⟩ :: after)
    rw [history, List.append_assoc] at done
    obtain ⟨_, ⟨payload, executed⟩ | ⟨_, _, _, _, _, unbound⟩⟩ :=
      picked.of_forced path done present forces prepared kind
    · obtain ⟨c', performed⟩ := mem_doneBy.mp (later (settled executed))
      obtain ⟨first, rest, split⟩ := List.append_of_mem performed
      exact not_executed_of_forced path present forces split
    · obtain ⟨binding, there, same⟩ :=
        binding_of_read path (later (reads (List.mem_cons_of_mem _ List.mem_cons_self))) bound
      exact unbound binding there same
  · cases picked with
    | forced found given => exact forces (forces_iff.mp given)
    | final => cases kind
    | ordinary results first used =>
      cases kind
      cases rows with
      | nil => cases first
      | cons head rest =>
        cases first
        obtain ⟨there, _, _⟩ := listed_of_read path listed List.mem_cons_self
        obtain ⟨known, _, id⟩ := tool_of_read path (later (reads List.mem_cons_self))
        apply schemas forces i head rest executes listed ⟨row, later (reads List.mem_cons_self), active⟩
        rw [schema_of_reads path there known id.symm, bad]

/-! ## The tools that were created -/

/-- The tools that were stored have schemas that compile when they are read. -/
def StoresCompiled (events : List (Event (platform lib config))) : Prop :=
  ∀ i c tenantId name inputSchema mockHandler row,
    .performed i c ⟨.sql (.createTool tenantId name inputSchema mockHandler), .ok row⟩ ∈ events →
      lib.compile (lib.decodeJson inputSchema) ≠ none

theorem StoresCompiled.tools (stores : StoresCompiled events) (path : Path (started lib config) events pool)
    {tool : ToolRow} (present : tool ∈ pool.shared.db.store.tools) :
    lib.compile (toolFromRow lib tool).inputSchema ≠ none := by
  induction path generalizing tool with
  | nil => simp [started, World.new] at present
  | @snoc middle last events event path step ih =>
    have earlier {tool : ToolRow} (old : tool ∈ middle.shared.db.store.tools) :
        lib.compile (toolFromRow lib tool).inputSchema ≠ none :=
      ih (fun i c owner name inputSchema mockHandler row member =>
        stores i c owner name inputSchema mockHandler row (List.mem_append_left _ member)) old
    rcases store_of_step step with same | ⟨i, c, statement, answer, rfl, ran⟩
    · rw [same] at present
      exact earlier present
    rcases tools_executed ran with same | ⟨owner, name, inputSchema, mockHandler, rfl, grown⟩ | ⟨_, _, _, changed⟩
    · rw [same] at present
      exact earlier present
    · cases answer with
      | error fault =>
        rw [unchanged_of_error rfl ran] at present
        exact earlier present
      | ok row =>
        rw [grown] at present
        rcases List.mem_append.mp present with old | new
        · exact earlier old
        · obtain rfl := List.mem_singleton.mp new
          exact stores i c owner name inputSchema mockHandler row
            (List.mem_append_right _ (List.mem_singleton_self _))
    · rw [changed] at present
      obtain ⟨row, there, rfl⟩ := List.mem_map.mp present
      have kept : lib.compile (toolFromRow lib row).inputSchema ≠ none := earlier there
      split
      · exact kept
      · exact kept

/-! ## The guarantee -/

/-- The row and the closing events of the run name a reason of the specification when they say that it failed. -/
structure RunRow.FailureNamed (s : Store) (run : RunRow) : Prop where
  row : run.status = .failed → ∃ reason ∈ runErrorReasons, run.errorReason = some reason
  closing : ∀ trace ∈ s.runTraces, trace.tenantId = run.tenantId → trace.runId = run.id → trace.type = .runEnd →
    trace.payload.get "status" = some (.string "failed") →
    ∃ reason ∈ runErrorReasons, trace.payload.get "error_reason" = some (.string reason)

theorem failureNamed_of_path (path : Path (started lib config) events pool) {run : RunRow}
    (present : run ∈ pool.shared.db.store.runs) (schemas : run.FirstSchemaCompiles events pool) :
    run.FailureNamed pool.shared.db.store := by
  obtain ⟨stage, sound⟩ := (valid_of_started path).runs run present
  obtain ⟨agent, _, _, _, reached⟩ := sound.reachable
  have named {reason : String} (given : run.errorReason = some reason) : reason ∈ runErrorReasons := by
    rcases (Stage.Reachable.within reached).named (sound.columns.errorReason.symm.trans given) with known | rfl
    · exact known
    · exact absurd given (reason_ne_uncompiled path present schemas)
  refine ⟨fun failed => ?_, fun trace logged owner id type failed => ?_⟩
  · have given := (sound.columns.columnsFit.failed failed).2.1
    obtain ⟨reason, given⟩ := Option.isSome_iff_exists.mp given
    exact ⟨reason, named given, given⟩
  · have member := sound.event_mem logged owner id
    rw [type] at member
    have ends := sound.endsWith member
    rcases ends.terminal with success | failed'
    · rw [ends.status, success] at failed
      simp [RunStatus.asStr] at failed
    · obtain ⟨reason, given, shown⟩ := ends.failed failed'
      exact ⟨reason, named given, shown⟩

/-- Failed runs name a reason of the specification as long as the schemas of the stored tools compile. Each single run
does so if the schemas of the tools of its agent compile, and already if it forces a call, or if the first listed tool
is deleted when it is called or has a schema that compiles. -/
theorem failure_reasons_named (path : Path (started lib config) events pool) :
    (StoresCompiled events → ∀ run ∈ pool.shared.db.store.runs, run.FailureNamed pool.shared.db.store) ∧
    (∀ run ∈ pool.shared.db.store.runs, pool.shared.db.store.BoundSchemasCompile lib run →
      run.FailureNamed pool.shared.db.store) ∧
    ∀ run ∈ pool.shared.db.store.runs, run.FirstSchemaCompiles events pool →
      run.FailureNamed pool.shared.db.store := by
  have bound {run : RunRow} (present : run ∈ pool.shared.db.store.runs)
      (schemas : pool.shared.db.store.BoundSchemasCompile lib run) :
      run.FailureNamed pool.shared.db.store := failureNamed_of_path path present (schemas.first path)
  refine ⟨fun stores run present => ?_, fun run present => bound present, fun run present =>
    failureNamed_of_path path present⟩
  exact bound present fun tool there _ _ => stores.tools path there

namespace Scenario

/-- Libraries that compile a schema only if its type is one of JSON Schema. -/
def strict : Libraries where
  compile schema := match schema.get "type" with
    | some (.string name) =>
        if name ∈ ["array", "boolean", "integer", "null", "number", "object", "string"] then
          some fun _ => true
        else none
    | _ => some fun _ => true
  hashPassword := permissive.hashPassword
  parsesHash := permissive.parsesHash
  verifyPassword := permissive.verifyPassword
  readFloat := permissive.readFloat

/-- The same decision in a server with these libraries. -/
def withLibraries (lib : Libraries) : Label (platform permissive config) → Label (platform lib config)
  | .arrive task => .arrive task
  | .act i choice => .act i choice

/-- A tool whose schema has a type that does not exist. -/
def mistypedTool : CreateToolRequest := { staticTool with inputSchema := .object [("type", .string "text")] }

/-- Every tool that was created has a schema that compiles. -/
def storesCompiled (lib : Libraries) (events : List (Event (platform lib config))) : Bool :=
  events.all fun
    | .performed _ _ ⟨.sql (.createTool _ _ inputSchema _), _⟩ => (lib.compile (lib.decodeJson inputSchema)).isSome
    | _ => true

theorem of_storesCompiled {lib : Libraries} {events : List (Event (platform lib config))}
    (compiled : storesCompiled lib events = true) : StoresCompiled events := by
  intro i c tenantId name inputSchema mockHandler row member
  have some_schema := List.all_eq_true.mp compiled _ member
  exact Option.isSome_iff_ne_none.mp some_schema

/-- An agent that may iterate only once is asked something. -/
def exhausting : List (Label (platform strict ⟨1, 1⟩)) :=
  (onboarding ++ [arrive (.createTool headers staticTool)] ++ moves 2 10 2 ++
    [arrive (.createAgent headers ⟨none, "Answer.", [11], 1⟩)] ++ moves 3 20 7 ++
    [arrive (.startRun headers 22 question)] ++ moves 4 30 10 ++ moves 5 40 14).map (withLibraries strict)

end Scenario

/-- An agent that may iterate once calls its tool, whose schema compiles, and the run fails for lack of iterations. -/
theorem failure_reasons_named_served : ∃ events pool, Path (started strict ⟨1, 1⟩) events pool ∧
    StoresCompiled events ∧
    ∃ run ∈ pool.shared.db.store.runs, run.status = .failed ∧ run.errorReason = some "max_iterations_exceeded" ∧
      pool.shared.db.store.BoundSchemasCompile strict run ∧ run.FirstSchemaCompiles events pool ∧
      run.FailureNamed pool.shared.db.store := by
  obtain ⟨events, pool, path, checked⟩ := (started strict ⟨1, 1⟩).exists_path exhausting
    (fun events pool => storesCompiled strict events && pool.shared.db.store.runs.any fun run =>
      run.status == .failed && run.errorReason == some "max_iterations_exceeded") (by decide +kernel)
  simp only [Bool.and_eq_true, List.any_eq_true, beq_iff_eq] at checked
  obtain ⟨compiled, run, present, failed, reason⟩ := checked
  have stores := of_storesCompiled compiled
  have schemas : pool.shared.db.store.BoundSchemasCompile strict run := fun tool there _ _ => stores.tools path there
  obtain ⟨named, _, _⟩ := failure_reasons_named path
  exact ⟨events, pool, path, stores, run, present, failed, reason, schemas, schemas.first path,
    named stores run present⟩

/-- A tool with a schema that does not compile is stored, and the run that calls it fails for a reason that the
specification does not have. -/
theorem failure_reason_unnamed : ∃ events pool, Path (started strict ⟨1, 1⟩) events pool ∧
    ∃ run ∈ pool.shared.db.store.runs, run.status = .failed ∧ run.errorReason = some uncompiledReason ∧
      ¬ run.FailureNamed pool.shared.db.store := by
  obtain ⟨events, pool, path, checked⟩ := (started strict ⟨1, 1⟩).exists_path
    ((serviceWith mistypedTool question 13).map (withLibraries strict))
    (fun _ pool => pool.shared.db.store.runs.any fun run =>
      run.status == .failed && run.errorReason == some uncompiledReason) (by decide +kernel)
  simp only [List.any_eq_true, Bool.and_eq_true, beq_iff_eq] at checked
  obtain ⟨run, present, failed, reason⟩ := checked
  refine ⟨events, pool, path, run, present, failed, reason, fun named => ?_⟩
  obtain ⟨other, known, given⟩ := named.row failed
  cases reason.symm.trans given
  exact absurd known (by decide)

end AgentPlatform
