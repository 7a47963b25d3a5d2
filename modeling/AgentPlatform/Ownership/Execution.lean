import AgentPlatform.Ownership.Handlers

/-! # The task of a run

`execute_run` under the discipline. The task owns its run from its first statement to its last, so
it always knows the stage of the run; what it has read about the agent and its tools lasts, because
agents keep their bindings and tools keep their definitions.
-/

set_option autoImplicit false

namespace AgentPlatform

open Interleaving Relational Database

variable {lib : Libraries} {config : Config}

/-! ## What a task has read -/

/-- The rows that a task relies on: its agent, the bindings of the agent, and the bound tools. -/
structure Knows (request : RunRow) (agent : AgentRow) (bindings : List AgentToolRow) (tools : List ToolRow)
    (s : Store) : Prop where
  agent : agent ∈ s.agents
  bindings : s.bindings request.tenantId request.agentId = bindings
  tools : ∀ tool ∈ tools, ∃ later ∈ s.tools, tool.Later later

theorem Store.bindings_evolve {s t : Store} (evolves : s.Evolves t) {agent : AgentRow} (present : agent ∈ s.agents)
    (tenantId : Uuid) : t.bindings tenantId agent.id = s.bindings tenantId agent.id := by
  obtain ⟨more, grown, new⟩ := evolves.agentTools
  rw [Store.bindings, Store.bindings, grown, List.filter_append, List.append_right_eq_self, List.filter_eq_nil_iff]
  intro binding member hit
  simp only [Bool.and_eq_true, beq_iff_eq] at hit
  exact new binding member agent present hit.2.symm

theorem ToolRow.Later.trans {first second third : ToolRow} (left : first.Later second)
    (right : second.Later third) : first.Later third where
  id := right.id.trans left.id
  tenantId := right.tenantId.trans left.tenantId
  name := right.name.trans left.name
  inputSchema := right.inputSchema.trans left.inputSchema
  mockHandler := right.mockHandler.trans left.mockHandler
  createdAt := right.createdAt.trans left.createdAt
  deletedAt gone := by
    rw [right.deletedAt (left.deletedAt gone ▸ gone), left.deletedAt gone]

theorem lasting_knows {request : RunRow} {agent : AgentRow} (id : agent.id = request.agentId)
    {bindings : List AgentToolRow} {tools : List ToolRow} :
    Lasting (Knows request agent bindings tools) := by
  intro before after evolves known
  refine ⟨evolves.agents.subset known.agent, ?_, ?_⟩
  · rw [← id, Store.bindings_evolve evolves known.agent, id]
    exact known.bindings
  · intro tool member
    obtain ⟨later, present, since⟩ := known.tools tool member
    obtain ⟨last, found, then_⟩ := evolves.tools later present
    exact ⟨last, found, since.trans then_⟩

/-! ## What a task remembers -/

/-- The history of a task whose statements have all succeeded so far. -/
structure Told (past : List (Performed signature)) (tools : List ToolRow)
    (read : Option (Option ToolRow)) : Prop where
  listed : past.findSome? listedTools? = some tools
  read : past.findSome? readTool? = read
  healthy : past.any failed = false

variable {past : List (Performed signature)} {tools : List ToolRow} {read : Option (Option ToolRow)}
  {what : Performed signature} {request : RunRow} {stage : Stage}

theorem Told.append (told : Told past tools read) (unread : readTool? what = none)
    (fine : failed what = false) : Told (past ++ [what]) tools read where
  listed := by rw [List.findSome?_append, told.listed]; rfl
  read := by rw [List.findSome?_append, told.read]; cases read <;> simp [unread]
  healthy := by simp [told.healthy, fine]

theorem Concluded.of_failed (broken : failed what = true) : Concluded lib request stage (past ++ [what]) := by
  intro _ healthy
  simp [broken] at healthy

/-- Operations that read no tools do not change the conclusion. -/
theorem Concluded.append (concluded : Concluded lib request stage past) (unlisted : listedTools? what = none)
    (unread : readTool? what = none) (unstarted : beganRun what = false) :
    Concluded lib request stage (past ++ [what]) := by
  intro began healthy
  simp only [List.any_append, List.any_cons, List.any_nil, Bool.or_false, unstarted,
    Bool.or_eq_false_iff] at began healthy
  have same : Abandons lib request (past ++ [what]) ↔ Abandons lib request past := by
    simp [Abandons, List.findSome?_append, unlisted, unread]
  rw [same]
  exact concluded began healthy.1

/-- Reading a tool counts only if it is the first time. -/
theorem Told.append_read (told : Told past tools read) {tenantId toolId : Uuid} {row : Option ToolRow} :
    Told (past ++ [⟨.sql (.getTool tenantId toolId), .ok row⟩]) tools (read.or (some row)) where
  listed := by rw [List.findSome?_append, told.listed]; rfl
  read := by rw [List.findSome?_append, told.read]; rfl
  healthy := by simp [told.healthy, failed]

theorem Concluded.of_any_failed (broken : past.any failed = true) : Concluded lib request stage past := by
  intro _ healthy
  rw [broken] at healthy
  cases healthy

theorem Told.abandoned (told : Told past tools read) (running : stage.status = .running)
    (unforced : ¬ request.ForcesInvalidCall)
    (stuck : tools = [] ∨ ∃ tool rest, tools = tool :: rest ∧
      (∃ row, read = some (some row) ∧ row.deletedAt = none) ∧
      lib.Accepts (toolFromRow lib tool).inputSchema (iterationArguments 0) ∧
      ∀ result, executeMockHandler (toolFromRow lib tool).mockHandler ≠ .ok result) :
    Concluded lib request stage past := by
  refine fun _ _ => .inl ⟨⟨unforced, ?_⟩, running⟩
  rcases stuck with rfl | ⟨tool, rest, rfl, first, accepts, handler⟩
  · exact .inl told.listed
  · exact .inr ⟨tool, rest, told.listed, told.read ▸ first, accepts, handler⟩

theorem Told.ended (told : Told past tools read) {rounds : List Round} {decision : Option LlmDecision}
    {verdict : Verdict}
    (free : request.ForcesInvalidCall ∨ ∃ tool rest, tools = tool :: rest ∧
      ((∀ row, read = some (some row) → row.deletedAt ≠ none) ∨
        ¬ lib.Accepts (toolFromRow lib tool).inputSchema (iterationArguments 0) ∨
        ∃ result, executeMockHandler (toolFromRow lib tool).mockHandler = .ok result)) :
    Concluded lib request (.ended rounds decision verdict) past := by
  refine fun _ _ => .inr ⟨?_, rounds, decision, verdict, rfl⟩
  rintro ⟨unforced, stuck⟩
  rw [told.listed, told.read] at stuck
  rcases free with forced | ⟨tool, rest, rfl, free⟩
  · exact unforced forced
  rcases stuck with none_bound | ⟨tool', rest', same, ⟨row, first, active⟩, accepts, handler⟩
  · cases none_bound
  · cases same
    rcases free with deleted | refused | ⟨result, handled⟩
    · exact deleted row first active
    · exact refused accepts
    · exact handler result handled

/-- Once a round is over, the first bound tool has been executed. -/
def Handles (lib : Libraries) (rounds : List Round) (tools : List ToolRow) : Prop :=
  rounds ≠ [] → ∃ tool rest result, tools = tool :: rest ∧
    executeMockHandler (toolFromRow lib tool).mockHandler = .ok result

/-- The end after a round. -/
theorem Told.ended_later (told : Told past tools read) {rounds executed : List Round} {decision : Option LlmDecision}
    {verdict : Verdict} (handles : Handles lib executed tools) (some_round : executed ≠ []) :
    Concluded lib request (.ended rounds decision verdict) past := by
  obtain ⟨tool, rest, result, same, handler⟩ := handles some_round
  exact told.ended (.inr ⟨tool, rest, same, .inr (.inr ⟨result, handler⟩)⟩)

/-- The end with a call that is refused, in the first round or later. -/
theorem Told.refused {tool : ToolRow} {rest : List ToolRow} (told : Told past (tool :: rest) read)
    {rounds : List Round} {decision : Option LlmDecision} {verdict : Verdict}
    (handles : Handles lib rounds (tool :: rest))
    (initial : rounds = [] → (∀ row, read = some (some row) → row.deletedAt ≠ none) ∨
      ¬ lib.Accepts (toolFromRow lib tool).inputSchema (iterationArguments 0)) : Concluded lib request
        (.ended rounds decision verdict) past := by
  by_cases none_yet : rounds = []
  · refine told.ended (.inr ⟨tool, rest, rfl, ?_⟩)
    rcases initial none_yet with deleted | refused
    · exact .inl deleted
    · exact .inr (.inl refused)
  · exact told.ended_later handles none_yet

/-! ## Leaving the task -/

/-- What holds when `execute_run` returns, before the task drops its permits. -/
abbrev Leaves (lib : Libraries) (config : Config) (request : RunRow) (permits : List SemaphoreRef) :
    Except AppError Unit → (ownership lib config).Assertion :=
  fun _ claim permits' w past => claim = {.run request.id} ∧ permits' = permits ∧
    ∃ stage, InStage lib w request stage ∧ Concluded lib request stage past

variable {permits : List SemaphoreRef} {w : World} {Q : Store → Prop}

theorem safe_leave {task : Task} {result : Except AppError Unit} (now : InStage lib w request stage)
    (concluded : Concluded lib request stage past) :
    (ownership lib config).Safe task (Leaves lib config request permits) (.done result) {.run request.id}
      permits w past :=
  safe_done (persistent_inStage (Set.mem_singleton _)) now fun _ stands => ⟨rfl, rfl, stage, stands, concluded⟩

/-- The two writes that settle a run, followed by the return. -/
theorem safe_settle (verdict : Verdict) {task : Task} {rounds : List Round} {decision : Option LlmDecision}
    {rest : Except SqlxError ℕ → Act Unit} {last : Except SqlxError Unit → Act Unit}
    (lasting : Lasting Q) (known : Q w.db.store) (now : InStage lib w request stage)
    (acts : ∀ s, Q s → task.ActsFor lib s request.tenantId)
    (running : stage.status = .running) (started : stage.hasStarted = true)
    (moves : ∀ t maxIterations, Valid lib t → Q t.db.store → t.db.store.HasAgent request maxIterations →
      stage.Next maxIterations (.settled rounds decision verdict))
    (events : stage.events = Stage.loopEvents rounds decision) (sameRounds : stage.rounds = rounds)
    (concluded : Concluded lib request (.ended rounds decision verdict) past)
    (finalized : ∀ count, rest (.ok count) =
      .call (.sql (.appendEvent request.tenantId request.id .runEnd verdict.payload)) last)
    (unfinalized : ∀ fault, ∃ result, rest (.error fault) = .done result)
    (returns : ∀ answer, ∃ result, last answer = .done result) :
    (ownership lib config).Safe task (Leaves lib config request permits)
      (.call (.sql (.finalizeRun request.tenantId request.id verdict.status verdict.finalAnswer
        verdict.errorReason)) rest) {.run request.id} permits w past := by
  have owner : Token.run request.id ∈ ({.run request.id} : Set Token) := Set.mem_singleton _
  refine safe_finalizeRun owner lasting known now acts running started moves events sameRounds ?_ ?_
  · intro t knows stands
    rw [finalized]
    refine safe_appendEvent _ owner lasting knows stands acts (fun _ _ _ _ _ => .close)
      rfl rfl (fun _ _ _ _ found => .inl found) ?_ ?_
    · intro t knows stands
      obtain ⟨result, done⟩ := returns (.ok ())
      rw [done]
      exact safe_leave stands ((concluded.append rfl rfl rfl).append rfl rfl rfl)
    · intro t fault knows stands
      obtain ⟨result, done⟩ := returns (.error fault)
      rw [done]
      exact safe_leave stands (.of_failed rfl)
  · intro t fault knows stands
    obtain ⟨result, done⟩ := unfinalized fault
    rw [done]
    exact safe_leave stands (.of_failed rfl)

/-! ## Tool calls -/

/-- The row is in the table, perhaps marked as deleted since. -/
def Store.HasTool (s : Store) (row : ToolRow) : Prop := ∃ later ∈ s.tools, row.Later later

theorem lasting_hasTool (row : ToolRow) : Lasting fun s => s.HasTool row := by
  rintro before after evolves ⟨later, present, since⟩
  obtain ⟨last, found, then_⟩ := evolves.tools later present
  exact ⟨last, found, since.trans then_⟩

theorem Store.findTool_some {s : Store} {tenantId toolId : Uuid} {row : ToolRow}
    (found : s.findTool tenantId toolId = some row) :
    row ∈ s.tools ∧ row.tenantId = tenantId ∧ row.id = toolId := by
  have hit := List.find?_some found
  simp only [Bool.and_eq_true, beq_iff_eq] at hit
  exact ⟨List.mem_of_find?_eq_some found, hit⟩

/-- The ids that `get_agent_tool_ids` answers. -/
theorem mem_agentToolIds {c : Choice} {db db' : Database} {tenantId agentId toolId : Uuid} {ids : List Uuid}
    (ran : Executed c db (.getAgentToolIds tenantId agentId) (.ok ids) db') :
    toolId ∈ ids ↔ ∃ binding ∈ db.store.bindings tenantId agentId, binding.toolId = toolId := by
  cases ran with
  | select healthy answered =>
    cases answered
    simp [orderByCreatedAt]

/-- `authorize_tool_call` either cannot read, refuses, or has read an active tool that is bound. -/
theorem safe_authorizeToolCall {task : Task} {claim : Set Token}
    {post : Except AppError Unit → (ownership lib config).Assertion} {P : World → Prop}
    {tenantId agentId toolId : Uuid} {rest : Except AppError ToolRecord → Act Unit}
    (persistent : Persistent lib claim P) (known : P w)
    (acts : ∀ w, P w → task.ActsFor lib w.db.store tenantId)
    (unavailable : ∀ t fault past, P t → past.any failed = true →
      (ownership lib config).Safe task post (rest (.error (.db fault))) claim permits t past)
    (missing : ∀ before after, P before → P after → Valid lib before →
      before.db.store.findTool tenantId toolId = none →
      (ownership lib config).Safe task post (rest (.error (.badRequest "tool_not_allowed_for_agent"))) claim
        permits after (past ++ [⟨.sql (.getTool tenantId toolId), .ok none⟩]))
    (deleted : ∀ before after row, P before → P after → Valid lib before →
      before.db.store.findTool tenantId toolId = some row → row.deletedAt ≠ none →
      (ownership lib config).Safe task post (rest (.error (.badRequest "tool_deleted"))) claim
        permits after (past ++ [⟨.sql (.getTool tenantId toolId), .ok (some row)⟩]))
    (refused : ∀ before after row ids, P before → P after →
      (∀ binding ∈ before.db.store.bindings tenantId agentId, binding.toolId ≠ toolId) →
      (ownership lib config).Safe task post (rest (.error (.badRequest "tool_not_allowed_for_agent"))) claim
        permits after (past ++ [⟨.sql (.getTool tenantId toolId), .ok (some row)⟩] ++
          [⟨.sql (.getAgentToolIds tenantId agentId), .ok ids⟩]))
    (allowed : ∀ before middle after row ids, P before → P middle → P after → Valid lib before →
      before.db.store.findTool tenantId toolId = some row → row.deletedAt = none →
      (∃ binding ∈ middle.db.store.bindings tenantId agentId, binding.toolId = toolId) →
      after.db.store.HasTool row →
      (ownership lib config).Safe task post (rest (.ok (toolFromRow lib row))) claim
        permits after (past ++ [⟨.sql (.getTool tenantId toolId), .ok (some row)⟩] ++
          [⟨.sql (.getAgentToolIds tenantId agentId), .ok ids⟩])) :
    (ownership lib config).Safe task post ((authorizeToolCall lib tenantId agentId toolId).attempt >>= rest)
      claim permits w past := by
  have reads (statement : Statement) (free : statement.tenant? = some tenantId) (w : World) (now : P w)
      (tenant : Uuid) (named : statement.tenant? = some tenant) : task.ActsFor lib w.db.store tenant := by
    cases free.symm.trans named
    exact acts w now
  apply safe_unowned rfl persistent known (reads _ rfl)
  intro before after c answer now now' valid valid' ran
  cases answer with
  | error fault => exact unavailable after fault _ now' (by simp [failed])
  | ok row =>
    obtain ⟨found, same⟩ : before.db.store.findTool tenantId toolId = row ∧ after.db = before.db := by
      generalize same : after.db = db at ran
      cases ran with
      | select healthy answered => exact ⟨Option.some.inj answered, rfl⟩
    cases row with
    | none => exact missing before after now now' valid found
    | some row =>
      obtain ⟨id, owner, name, inputSchema, mockHandler, createdAt, deletedAt⟩ := row
      cases deletedAt with
      | some time => exact deleted before after _ now now' valid found nofun
      | none =>
        have present : after.db.store.HasTool ⟨id, owner, name, inputSchema, mockHandler, createdAt, none⟩ :=
          ⟨_, same ▸ (Store.findTool_some found).1, .refl _⟩
        refine safe_unowned rfl (persistent.and (lasting_hasTool _).persistent) ⟨now', present⟩
          (fun w knows => reads _ rfl w knows.1) ?_
        intro middle last c answer knows knows' _ _ ran
        cases answer with
        | error fault => exact unavailable last fault _ knows'.1 (by simp [failed])
        | ok ids =>
          change (ownership lib config).Safe task post ((if toolId ∈ ids then pure (toolFromRow lib _)
            else throw (.badRequest "tool_not_allowed_for_agent") : Act ToolRecord).attempt >>= rest) claim
              permits last _
          split
          · next bound =>
            exact allowed before middle last _ ids now knows.1 knows'.1 valid found rfl
              ((mem_agentToolIds ran).mp bound) knows'.2
          · next unbound =>
            refine refused middle last _ ids knows.1 knows'.1 fun binding member same => unbound ?_
            exact (mem_agentToolIds ran).mpr ⟨binding, member, same⟩

/-! ## The agent loop -/

section Decisions

variable {tenantId agentId : Uuid} {boundTools : List ToolRecord} {toolResultCount : ℕ} {tool : ToolRecord}

theorem mockLlmDecision_ordinary (few : toolResultCount < 2) (first : boundTools.head? = some tool) :
    mockLlmDecision lib tenantId agentId boundTools toolResultCount false = pure
    (.ordinary tool.id toolResultCount) := by
  simp only [mockLlmDecision, Bool.false_eq_true, ↓reduceIte, few, first, okOr]
  rfl

theorem mockLlmDecision_unbound (few : toolResultCount < 2) :
    mockLlmDecision lib tenantId agentId [] toolResultCount false =
      throw (.internal "agent has no bound tools for deterministic loop") := by
  simp only [mockLlmDecision, Bool.false_eq_true, ↓reduceIte, few]
  rfl

theorem mockLlmDecision_final (enough : ¬ toolResultCount < 2) :
    mockLlmDecision lib tenantId agentId boundTools toolResultCount false = pure .final := by
  simp only [mockLlmDecision, Bool.false_eq_true, ↓reduceIte, enough]

theorem mockLlmDecision_forced : mockLlmDecision lib tenantId agentId boundTools toolResultCount true =
    .call (.sql (.findUnboundActiveTool tenantId agentId)) fun answer : Except SqlxError (Option ToolRow) =>
      match answer with
      | .ok row => pure (.forced ((row.map ToolRow.id).getD Uuid.nil))
      | .error error => throw (.db error) := by
  refine congrArg (@Program.call signature _ _ (Op.sql _)) (funext fun answer => ?_)
  rcases answer with error | _ | row <;> rfl

end Decisions

theorem unavailable_reason {fault : SqlxError} : normalizeErrorReason (.db fault) ∈ rejectionReasons := by
  change "internal_error" ∈ rejectionReasons
  decide

theorem validateToolArguments_reason {inputSchema arguments : Value} {fault : AppError}
    (refused : validateToolArguments lib inputSchema arguments = .error fault) :
    normalizeErrorReason fault ∈ rejectionReasons := by
  unfold validateToolArguments at refused
  split at refused
  · cases refused; decide
  · split at refused
    · cases refused
    · cases refused; decide

theorem executeMockHandler_ok {mockHandler result : Value} : executeMockHandler mockHandler = .ok result ↔
    mockHandler.get "type" = some (.string "static") ∧ mockHandler.get "response" = some result := by
  unfold executeMockHandler
  have reads : (mockHandler.get "type").bind Value.asStr = some "static" ↔
      mockHandler.get "type" = some (.string "static") := by
    cases mockHandler.get "type" with
    | none => simp
    | some value => cases value <;> simp [Value.asStr]
  split
  · next static =>
    rw [reads] at static
    cases mockHandler.get "response" <;> simp [static]
  · next other =>
    have unlike : mockHandler.get "type" ≠ some (.string "static") := fun same => other (reads.mpr same)
    simp [unlike]

/-- The response of a static handler, as it is read from its row. -/
theorem executeMockHandler_decodeJson {mockHandler result : Value} :
    executeMockHandler (lib.decodeJson mockHandler) = .ok result ↔ mockHandler.get "type" = some (.string "static") ∧
      ∃ response, mockHandler.get "response" = some response ∧ result = lib.decodeJson response := by
  have type : (mockHandler.get "type").map lib.decodeJson = some (.string "static") ↔
      mockHandler.get "type" = some (.string "static") := by
    cases mockHandler.get "type" with
    | none => simp
    | some value => simp only [Option.map_some, Option.some.injEq, lib.decodeJson_eq_string]
  rw [executeMockHandler_ok, lib.decodeJson_get, lib.decodeJson_get, type, Option.map_eq_some_iff]
  simp only [eq_comm]

/-- Leaving the loop with a failed run. -/
theorem safe_failRun {task : Task} {rounds : List Round} {decision : Option LlmDecision} {reason : String}
    {rest : Except AppError Unit → Act Unit} (lasting : Lasting Q) (known : Q w.db.store)
    (now : InStage lib w request stage) (acts : ∀ s, Q s → task.ActsFor lib s request.tenantId)
    (running : stage.status = .running) (started : stage.hasStarted = true)
    (moves : ∀ t maxIterations, Valid lib t → Q t.db.store → t.db.store.HasAgent request maxIterations →
      stage.Next maxIterations (.settled rounds decision (.failed reason)))
    (events : stage.events = Stage.loopEvents rounds decision) (sameRounds : stage.rounds = rounds)
    (concluded : Concluded lib request (.ended rounds decision (.failed reason)) past)
    (returns : ∀ answer, ∃ result, rest answer = .done result) :
    (ownership lib config).Safe task (Leaves lib config request permits)
      ((failRun request.tenantId request.id reason).handle rest) {.run request.id} permits w past := by
  refine safe_settle (.failed reason) lasting known now acts running started moves events sameRounds
    concluded (fun _ => rfl) (fun fault => returns (.error (.db fault))) fun answer => ?_
  cases answer with
  | error fault => exact returns (.error (.db fault))
  | ok done => exact returns (.ok ())

/-- A refused call fails the run, and the task returns the error. -/
theorem safe_rejected {task : Task} {rounds : List Round} {decision : LlmDecision} {fault : AppError}
    (lasting : Lasting Q) (known : Q w.db.store) (now : InStage lib w request (.calling rounds decision))
    (acts : ∀ s, task.ActsFor lib s request.tenantId)
    (called : ∃ toolId arguments, decision.kind = .toolCall toolId arguments)
    (given : normalizeErrorReason fault ∈ rejectionReasons)
    (concluded : Concluded lib request (.ended rounds (some decision) (.failed (normalizeErrorReason fault))) past) :
    (ownership lib config).Safe task (Leaves lib config request permits)
      (failRun request.tenantId request.id (normalizeErrorReason fault) >>= fun _ => throw fault) {.run request.id}
      permits w past := by
  refine safe_failRun lasting known now (fun s _ => acts s) rfl rfl (fun _ _ _ _ _ => .reject called given) rfl rfl
    concluded fun answer => ?_
  cases answer with
  | error failure => exact ⟨_, rfl⟩
  | ok done => exact ⟨_, rfl⟩

/-- The agent of a run is the only one with its id. -/
theorem Knows.maxIterations {agent : AgentRow} {bindings : List AgentToolRow} {t : World} (valid : Valid lib t)
    (knows : Knows request agent bindings tools t.db.store) (id : agent.id = request.agentId) {maxIterations : ℕ}
    (has : t.db.store.HasAgent request maxIterations) : agent.maxIterations.toNat = maxIterations := by
  obtain ⟨other, present, _, sameId, rfl⟩ := has
  rw [valid.wellFormed.agents.ids.committed.eq knows.agent present rfl (congrArg some (sameId.trans id.symm))]

/-- A tool that was listed is read with the definition it was listed with. -/
theorem Knows.later {agent : AgentRow} {bindings : List AgentToolRow} {t : World} (valid : Valid lib t)
    (knows : Knows request agent bindings tools t.db.store) {tool row : ToolRow} {tenantId : Uuid}
    (listed : tool ∈ tools) (found : t.db.store.findTool tenantId tool.id = some row) : tool.Later row := by
  obtain ⟨later, present, since⟩ := knows.tools tool listed
  obtain ⟨read, _, id⟩ := Store.findTool_some found
  rwa [valid.wellFormed.catalogue.ids.eq read present rfl (congrArg some (since.id.trans id.symm))]

/-- A bound tool that passed the checks was authorised. -/
theorem Knows.authorised {agent : AgentRow} {bindings : List AgentToolRow} {s : Store}
    (knows : Knows request agent bindings tools s) {row : ToolRow} (has : s.HasTool row)
    (owned : row.tenantId = request.tenantId) (bound : ∃ binding ∈ bindings, binding.toolId = row.id)
    {arguments result : Value} (accepts : lib.Accepts (toolFromRow lib row).inputSchema arguments)
    (executed : executeMockHandler (toolFromRow lib row).mockHandler = .ok result) :
    s.Authorised lib request.tenantId request.agentId (toolFromRow lib row) arguments result where
  row := by
    obtain ⟨later, present, since⟩ := has
    refine ⟨later, present, since.tenantId.trans owned, since.id, since.name, ?_, ?_⟩
    · rwa [since.inputSchema]
    · rw [since.mockHandler]
      exact executeMockHandler_decodeJson.mp executed
  binding := by
    obtain ⟨binding, member, same⟩ := bound
    rw [← knows.bindings] at member
    have hit := (List.mem_filter.mp member).2
    simp only [Bool.and_eq_true, beq_iff_eq] at hit
    exact ⟨binding, (List.mem_filter.mp member).1, hit.1, hit.2, same⟩

/-- A call that passed the checks is logged with its result, and the loop goes on. -/
theorem safe_executedCall {task : Task} {agent : AgentRow} {bindings : List AgentToolRow} {tool row : ToolRow}
    {rounds : List Round} {result : Value} {next : Except SqlxError Unit → Act Unit}
    (acts : ∀ s, task.ActsFor lib s request.tenantId) (id : agent.id = request.agentId)
    (listed : tool.tenantId = request.tenantId ∧ ∃ binding ∈ bindings, binding.toolId = tool.id)
    (since : tool.Later row)
    (accepts : lib.Accepts (toolFromRow lib row).inputSchema (iterationArguments rounds.length))
    (executed : executeMockHandler (toolFromRow lib row).mockHandler = .ok result)
    (known : Knows request agent bindings tools w.db.store) (has : w.db.store.HasTool row)
    (now : InStage lib w request (.calling rounds (.ordinary tool.id rounds.length)))
    (ok : ∀ t, Knows request agent bindings tools t.db.store →
      InStage lib t request (.looping (rounds ++ [⟨toolFromRow lib row, result⟩])) → (ownership lib config).Safe task
      (Leaves lib config request permits) (next (.ok ())) {.run request.id} permits t
        (past ++ [⟨.sql (.appendEvent request.tenantId request.id .toolExec
          (Payload.toolExec (toolFromRow lib row) (iterationArguments rounds.length) result)), .ok ()⟩]))
    (error : ∀ fault, ∃ left, next (.error fault) = .done left) :
    (ownership lib config).Safe task (Leaves lib config request permits)
      (.call (.sql (.appendEvent request.tenantId request.id .toolExec
        (Payload.toolExec (toolFromRow lib row) (iterationArguments rounds.length) result))) next)
          {.run request.id} permits w past := by
  have lasting : Lasting (Knows request agent bindings tools) := lasting_knows id
  rw [← since.id] at now
  refine safe_appendEvent (.looping (rounds ++ [⟨toolFromRow lib row, result⟩])) (Set.mem_singleton _)
    (lasting.and (lasting_hasTool row)) ⟨known, has⟩ now (fun s _ => acts s) ?_ ?_ ?_ ?_ ?_ ?_
  · exact fun _ _ _ _ _ => .execute ⟨toolFromRow lib row, result⟩
  · rfl
  · simp [Stage.events, Stage.loopEvents, Stage.decisionEvents, Stage.roundEvents_append, toolFromRow]
  · intro s knows i round found
    rw [Stage.rounds, List.getElem?_append] at found
    split at found
    · exact .inl found
    · rw [List.getElem?_singleton] at found
      split at found
      · obtain ⟨owned, binding, member, same⟩ := listed
        obtain rfl : i = rounds.length := by omega
        cases found
        exact .inr (knows.1.authorised knows.2 (since.tenantId.trans owned)
          ⟨binding, member, same.trans since.id.symm⟩ accepts executed)
      · cases found
  · exact fun t knows stands => ok t knows.1 stands
  · intro t fault _ stands
    obtain ⟨left, done⟩ := error fault
    rw [done]
    exact safe_leave stands (.of_failed rfl)

/-- The call of the first bound tool: it is refused, or has no result, or the loop goes on after it. -/
theorem safe_calledTool {task : Task} {agent : AgentRow} {bindings : List AgentToolRow} {tool : ToolRow}
    {rest : List ToolRow} {rounds : List Round} {answered : Except AppError ToolRecord → Act Unit} (next : Act Unit)
    (acts : ∀ s, task.ActsFor lib s request.tenantId) (id : agent.id = request.agentId)
    (bound : ∀ listed ∈ tool :: rest, listed.tenantId = request.tenantId ∧
      ∃ binding ∈ bindings, binding.toolId = listed.id) (unforced : ¬ request.ForcesInvalidCall)
    (refuses : ∀ fault, answered (.error fault) = do
      failRun request.tenantId request.id (normalizeErrorReason fault)
      throw fault)
    (rejects : ∀ (record : ToolRecord) fault,
      validateToolArguments lib record.inputSchema (iterationArguments rounds.length) = .error fault →
          answered (.ok record) = do
        failRun request.tenantId request.id (normalizeErrorReason fault)
        throw fault)
    (executes : ∀ record : ToolRecord,
      validateToolArguments lib record.inputSchema (iterationArguments rounds.length) = .ok () →
          answered (.ok record) = do
        let result ← okOrError (executeMockHandler record.mockHandler)
        Trace.appendEvent request.tenantId request.id .toolExec
          (Payload.toolExec record (iterationArguments rounds.length) result)
        next)
    (told : Told past (tool :: rest) read) (first : rounds = [] → read = none)
      (handled : Handles lib rounds (tool :: rest))
    (known : Knows request agent bindings (tool :: rest) w.db.store)
    (now : InStage lib w request (.calling rounds (.ordinary tool.id rounds.length)))
    (continues : ∀ row result t past, executeMockHandler (toolFromRow lib tool).mockHandler = .ok result →
      Told past (tool :: rest) (read.or (some (some row))) → Knows request agent bindings (tool :: rest) t.db.store →
      InStage lib t request (.looping (rounds ++ [⟨toolFromRow lib row, result⟩])) →
        (ownership lib config).Safe task (Leaves lib config request permits) next {.run request.id} permits t past) :
    (ownership lib config).Safe task (Leaves lib config request permits)
      ((authorizeToolCall lib request.tenantId agent.id tool.id).attempt >>= answered)
          {.run request.id} permits w past := by
  have lasting : Lasting (Knows request agent bindings (tool :: rest)) := lasting_knows id
  have owner : Token.run request.id ∈ ({.run request.id} : Set Token) := Set.mem_singleton _
  refine safe_authorizeToolCall (lasting.persistent.and (persistent_inStage owner)) ⟨known, now⟩
    (fun w _ => acts w.db.store) ?_ ?_ ?_ ?_ ?_
  · intro t fault past knows broken
    rw [refuses]
    exact safe_rejected lasting knows.1 knows.2 acts ⟨_, _, rfl⟩ unavailable_reason (.of_any_failed broken)
  · intro before after knows _ valid missing
    obtain ⟨row, present, since⟩ := knows.1.tools tool List.mem_cons_self
    have owned := (bound tool List.mem_cons_self).1
    have absent := List.find?_eq_none.mp missing row present
    simp [since.tenantId, since.id, owned] at absent
  · intro before after row knows knows' valid found gone
    rw [refuses]
    apply safe_rejected lasting knows'.1 knows'.2 acts ⟨_, _, rfl⟩ (by decide)
    refine told.append_read.refused handled fun initial => .inl ?_
    rw [first initial]
    rintro other ⟨⟩
    exact gone
  · intro before after row ids knows _ unbound
    obtain ⟨_, binding, member, same⟩ := bound tool List.mem_cons_self
    rw [← knows.1.bindings, ← id] at member
    exact absurd same (unbound binding member)
  · intro before middle after row ids knows _ knows' valid found active _ has
    have since : tool.Later row := knows.1.later valid List.mem_cons_self found
    have told' : Told (past ++ [⟨.sql (.getTool request.tenantId tool.id), .ok (some row)⟩] ++
        [⟨.sql (.getAgentToolIds request.tenantId agent.id), .ok ids⟩]) (tool :: rest) (read.or (some (some row))) :=
      told.append_read.append rfl rfl
    cases validated : validateToolArguments lib (toolFromRow lib row).inputSchema
      (iterationArguments rounds.length) with
    | error fault =>
      rw [rejects _ _ validated]
      apply safe_rejected lasting knows'.1 knows'.2 acts ⟨_, _, rfl⟩ (validateToolArguments_reason validated)
      refine told'.refused handled fun initial => .inr fun accepts => ?_
      subst initial
      rw [← since.schema] at accepts
      cases validated.symm.trans (validateToolArguments_ok.mpr accepts)
    | ok done =>
      have accepts := validateToolArguments_ok.mp validated
      rw [executes _ validated]
      cases executed : executeMockHandler (toolFromRow lib row).mockHandler with
      | error fault =>
        have stuck (result : Value) : executeMockHandler (toolFromRow lib tool).mockHandler ≠ .ok result := by
          rw [← since.handler]
          intro handler
          cases executed.symm.trans handler
        have initial : rounds = [] := by
          by_contra some_round
          obtain ⟨tool', rest', result, same, handler⟩ := handled some_round
          cases same
          exact stuck result handler
        subst initial
        refine safe_leave knows'.2
          (told'.abandoned rfl unforced (.inr ⟨tool, rest, rfl, ⟨row, ?_, active⟩, ?_, stuck⟩))
        · rw [first rfl]
          rfl
        · rw [← since.schema]
          exact accepts
      | ok result =>
        refine safe_executedCall acts id (bound tool List.mem_cons_self) since accepts executed knows'.1 has
          knows'.2 ?_ fun fault => ⟨_, rfl⟩
        intro t knows stands
        exact continues row result t _ (since.handler ▸ executed) (told'.append rfl rfl) knows stands

/-- The loop of a run that does not force an invalid call. -/
theorem safe_agentLoop {task : Task} {agent : AgentRow} {bindings : List AgentToolRow}
    (acts : ∀ s, task.ActsFor lib s request.tenantId) (id : agent.id = request.agentId)
    (bound : ∀ tool ∈ tools, tool.tenantId = request.tenantId ∧ ∃ binding ∈ bindings, binding.toolId = tool.id)
    (positive : 0 < agent.maxIterations.toNat) (unforced : ¬ request.ForcesInvalidCall)
    (remaining : ℕ) (rounds : List Round) (consumed : Bool) (w : World) (past : List (Performed signature))
    (read : Option (Option ToolRow)) (left : rounds.length + remaining = agent.maxIterations.toNat)
    (few : rounds.length ≤ 2) (told : Told past tools read) (first : rounds = [] → read = none)
    (handled : Handles lib rounds tools) (known : Knows request agent bindings tools w.db.store)
    (now : InStage lib w request (.looping rounds)) :
    (ownership lib config).Safe task (Leaves lib config request permits)
      (agentLoop lib request.tenantId request.id (agentFromRow agent) (tools.map (toolFromRow lib)) false remaining
        (rounds.length + 1) rounds.length consumed) {.run request.id} permits w past := by
  have lasting : Lasting (Knows request agent bindings tools) := lasting_knows id
  have owner : Token.run request.id ∈ ({.run request.id} : Set Token) := Set.mem_singleton _
  induction remaining generalizing rounds consumed w past read with
  | zero =>
    have some_round : rounds ≠ [] := by
      rintro rfl
      simp at left
      omega
    refine safe_settle (.failed "max_iterations_exceeded") lasting known now (fun s _ => acts s) rfl rfl ?_ rfl rfl
      (told.ended_later handled some_round) (fun _ => rfl) (fun _ => ⟨_, rfl⟩) ?_
    · intro t maxIterations valid knows has
      refine .exhaust ?_
      rw [← knows.maxIterations valid id has]
      simpa using left
    · intro answer
      cases answer <;> exact ⟨_, rfl⟩
  | succ remaining ih =>
    rw [agentLoop, Bool.false_and]
    by_cases more : rounds.length < 2
    · cases tools with
      | nil =>
        rw [List.map_nil, mockLlmDecision_unbound more]
        exact safe_leave now (told.abandoned rfl unforced (.inl rfl))
      | cons tool rest =>
        rw [mockLlmDecision_ordinary more rfl]
        refine safe_appendEvent (.calling rounds (.ordinary tool.id rounds.length)) owner lasting known now
          (fun s _ => acts s) ?_ ?_ ?_ ?_ ?_ ?_
        · intro t maxIterations valid knows has
          refine .decide ?_ (.ordinary tool.id more)
          have := knows.maxIterations valid id has
          omega
        · rfl
        · simp [Stage.events, Stage.loopEvents, Stage.decisionEvents, toolFromRow]
        · exact fun _ _ _ _ found => .inl found
        · intro t knows stands
          refine safe_calledTool (agentLoop lib request.tenantId request.id (agentFromRow agent)
            ((tool :: rest).map (toolFromRow lib)) false
            remaining (rounds.length + 1 + 1) (rounds.length + 1)
              (consumed || false)) acts id bound unforced ?_ ?_ ?_ ?_ first
            handled knows stands ?_
          · exact fun _ => rfl
          · intro record fault refused
            simp only [refused]
          · intro record accepted
            simp only [accepted]
          · exact told.append rfl rfl
          · intro row result t past executed told knows stands
            have size : (rounds ++ [(⟨toolFromRow lib row, result⟩ : Round)]).length = rounds.length + 1 := by simp
            have continues := ih (rounds ++ [⟨toolFromRow lib row, result⟩]) (consumed || false) t past _ (by omega)
                (by omega) told
              (by simp) (fun _ => ⟨tool, rest, result, rfl, executed⟩) knows stands
            rw [size] at continues
            push_cast at continues
            exact continues
        · intro t fault knows stands
          exact safe_leave stands (.of_failed rfl)
    · have two : rounds.length = 2 := by omega
      have some_round : rounds ≠ [] := by
        rintro rfl
        simp at two
      rw [mockLlmDecision_final more]
      refine safe_appendEvent (.calling rounds .final) owner lasting known now (fun s _ => acts s) ?_ ?_ ?_ ?_ ?_ ?_
      · intro t maxIterations valid knows has
        refine .decide ?_ (two ▸ .final)
        have := knows.maxIterations valid id has
        omega
      · rfl
      · simp [Stage.events, Stage.loopEvents, Stage.decisionEvents]
      · exact fun _ _ _ _ found => .inl found
      · intro t knows stands
        refine safe_settle (.success "Deterministic mock final answer.") lasting knows stands (fun s _ => acts s) rfl
          rfl (fun _ _ _ _ _ => .answer rfl) rfl rfl ((told.append rfl rfl).ended_later handled some_round)
            (fun _ => rfl)
          (fun _ => ⟨_, rfl⟩) ?_
        intro answer
        cases answer <;> exact ⟨_, rfl⟩
      · intro t fault knows stands
        exact safe_leave stands (.of_failed rfl)

/-- A forced call of a tool that is not bound fails the run. -/
theorem safe_forcedCall {task : Task} {agent : AgentRow} {bindings : List AgentToolRow} {toolId : Uuid}
    {rest : Except AppError ToolRecord → Act Unit}
    (acts : ∀ s, task.ActsFor lib s request.tenantId) (id : agent.id = request.agentId)
    (forced : request.ForcesInvalidCall) (unbound : ∀ binding ∈ bindings, binding.toolId ≠ toolId)
    (refuses : ∀ fault, rest (.error fault) = do
      failRun request.tenantId request.id (normalizeErrorReason fault)
      throw fault)
    (told : Told past tools read) (known : Knows request agent bindings tools w.db.store)
    (now : InStage lib w request (.calling [] (.forced toolId))) :
    (ownership lib config).Safe task (Leaves lib config request permits)
      ((authorizeToolCall lib request.tenantId request.agentId toolId).attempt >>= rest)
          {.run request.id} permits w past := by
  have lasting : Lasting (Knows request agent bindings tools) := lasting_knows id
  have owner : Token.run request.id ∈ ({.run request.id} : Set Token) := Set.mem_singleton _
  have refuse (t : World) (fault : AppError) (past : List (Performed signature))
      (given : normalizeErrorReason fault ∈ rejectionReasons)
      (knows : Knows request agent bindings tools t.db.store)
      (stands : InStage lib t request (.calling [] (.forced toolId)))
      (concluded : Concluded lib request
        (.ended [] (some (.forced toolId)) (.failed (normalizeErrorReason fault))) past) :
      (ownership lib config).Safe task (Leaves lib config request permits) (rest (.error fault))
        {.run request.id} permits t past := by
    rw [refuses]
    exact safe_rejected lasting knows stands acts ⟨_, _, rfl⟩ given concluded
  refine safe_authorizeToolCall (lasting.persistent.and (persistent_inStage owner)) ⟨known, now⟩
    (fun w _ => acts w.db.store) ?_ ?_ ?_ ?_ ?_
  · exact fun t fault past knows broken => refuse t _ past unavailable_reason knows.1 knows.2 (.of_any_failed broken)
  · exact fun _ t _ knows _ _ => refuse t _ _ (by decide) knows.1 knows.2 (told.append_read.ended (.inl forced))
  · exact fun _ t row _ knows _ _ _ => refuse t _ _ (by decide) knows.1 knows.2 (told.append_read.ended (.inl forced))
  · exact fun _ t row ids _ knows _ =>
      refuse t _ _ (by decide) knows.1 knows.2 ((told.append_read.append rfl rfl).ended (.inl forced))
  · intro before middle after row ids _ knows _ _ _ _ bound _
    obtain ⟨binding, member, same⟩ := bound
    rw [knows.1.bindings] at member
    exact absurd same (unbound binding member)

/-- What `find_unbound_active_tool` answers is not bound, and neither is the nil UUID. -/
theorem Knows.unbound {c : Choice} {t t' : World} {agent : AgentRow} {bindings : List AgentToolRow}
    (valid : Valid lib t) (knows : Knows request agent bindings tools t.db.store) {row : Option ToolRow}
    (ran : Executed c t.db (.findUnboundActiveTool request.tenantId request.agentId) (.ok row) t'.db)
    (binding : AgentToolRow) (member : binding ∈ bindings) :
    binding.toolId ≠ (row.map ToolRow.id).getD Uuid.nil := by
  have owned : binding ∈ t.db.store.agentTools ∧ binding.tenantId = request.tenantId ∧
      binding.agentId = request.agentId := by
    rw [← knows.bindings] at member
    simpa [Store.bindings] using member
  cases row with
  | none =>
    intro clash
    obtain ⟨tool, present, _, same⟩ := valid.wellFormed.bindings.tool binding (mem_everything.mpr (.inl owned.1))
    exact valid.wellFormed.catalogue.generated tool present (same.trans clash)
  | some tool =>
    generalize after : t'.db = db at ran
    cases ran with
    | select healthy answered =>
      have listed := List.mem_of_mem_head? (Option.some.inj answered)
      simp only [orderByCreatedAt, List.mem_insertionSort, Store.unboundTools, List.mem_filter,
        Store.activeTools, Bool.and_eq_true, beq_iff_eq] at listed
      obtain ⟨⟨_, tenantId, _⟩, apart⟩ := listed
      intro clash
      simp only [Bool.not_eq_eq_eq_not, Bool.not_true, List.any_eq_false, Bool.and_eq_true, beq_iff_eq,
        not_and] at apart
      exact apart binding owned.1 ⟨owned.2.1.trans tenantId.symm, owned.2.2⟩ clash

/-- The loop of a run that forces an invalid call is left in its first iteration. -/
theorem safe_forcedLoop {task : Task} {agent : AgentRow} {bindings : List AgentToolRow}
    (acts : ∀ s, task.ActsFor lib s request.tenantId) (id : agent.id = request.agentId)
    (positive : 0 < agent.maxIterations.toNat) (forced : request.ForcesInvalidCall) (told : Told past tools read)
    (known : Knows request agent bindings tools w.db.store) (now : InStage lib w request (.looping [])) :
    (ownership lib config).Safe task (Leaves lib config request permits)
      (agentLoop lib request.tenantId request.id (agentFromRow agent) (tools.map (toolFromRow lib)) true
        agent.maxIterations.toNat 1 0 false) {.run request.id} permits w past := by
  have lasting : Lasting (Knows request agent bindings tools) := lasting_knows id
  have owner : Token.run request.id ∈ ({.run request.id} : Set Token) := Set.mem_singleton _
  obtain ⟨remaining, full⟩ : ∃ remaining, agent.maxIterations.toNat = remaining + 1 :=
    ⟨_, (Nat.sub_add_cancel positive).symm⟩
  have same : (agentFromRow agent).id = request.agentId := id
  rw [full, agentLoop, same, Bool.not_false, Bool.true_and, mockLlmDecision_forced]
  refine safe_unowned rfl (lasting.persistent.and (persistent_inStage owner)) ⟨known, now⟩ ?_ ?_
  · rintro w knows tenant ⟨⟩
    exact acts _
  intro before after c answer knows knows' valid _ ran
  cases answer with
  | error fault => exact safe_leave knows'.2 (.of_failed rfl)
  | ok row =>
    have unbound := knows.1.unbound valid ran
    refine safe_appendEvent (.calling [] (.forced ((row.map ToolRow.id).getD Uuid.nil))) owner lasting knows'.1
      knows'.2 (fun s _ => acts s) ?_ ?_ rfl ?_ ?_ ?_
    · intro t maxIterations valid knows has
      refine .decide ?_ (.forced _)
      rw [← knows.maxIterations valid id has]
      exact positive
    · rfl
    · exact fun _ _ _ _ found => .inl found
    · intro t knows stands
      refine safe_forcedCall acts id forced unbound (fun fault => ?_) ((told.append rfl rfl).append rfl rfl)
        knows stands
      rfl
    · exact fun t fault knows stands => safe_leave stands (.of_failed rfl)

end AgentPlatform
