import AgentPlatform.Ownership.Usage

/-! # What a task has done before

The statements of `execute_run` with what its task has done before each of them. An executed tool
call follows the decision for it and the two reads that authorised it, and nothing comes between; a
run that is settled as failed is settled for a reason that the last reads give.
-/

set_option autoImplicit false

namespace AgentPlatform

open Interleaving

variable {lib : Libraries} {tenantId runId : Uuid} {past : List (Performed signature)}

/-- An `llm_call` event that was appended. -/
abbrev called (tenantId runId : Uuid) (iteration : Int) (decision : LlmDecision) : Performed signature :=
  ⟨.sql (.appendEvent tenantId runId .llmCall (Payload.llmCall iteration decision.tracePayload)), .ok ()⟩

/-- The operation settles a run. -/
def settles : Performed signature → Bool
  | ⟨.sql (.finalizeRun ..), _⟩ => true
  | _ => false

/-- The decision is to call this tool, and its payload says so. -/
structure LlmDecision.Names (decision : LlmDecision) (toolId : Uuid) (arguments : Value) : Prop where
  kind : decision.kind = .toolCall toolId arguments
  payload : decision.tracePayload.get "tool_id" = some (.uuid toolId)

/-- The decisions for these tools. -/
inductive Chosen (tools : List ToolRecord) (force : Bool) : LlmDecision → Prop
  | forced (toolId : Uuid) (forces : force = true) : Chosen tools force (.forced toolId)
  | ordinary {tool : ToolRecord} (first : tools.head? = some tool) (results : ℕ) :
      Chosen tools force (.ordinary tool.id results)
  | final : Chosen tools force .final

theorem Chosen.names {tools : List ToolRecord} {force : Bool} {decision : LlmDecision} {toolId : Uuid}
    {arguments : Value} (chosen : Chosen tools force decision) (kind : decision.kind = .toolCall toolId arguments) :
    decision.Names toolId arguments := by
  refine ⟨kind, ?_⟩
  cases chosen with
  | forced other forces => cases kind; rfl
  | ordinary first results => cases kind; rfl
  | final => cases kind

/-- What the task has read before its loop: its run, the agent of the run, and the tools of the agent. -/
structure Prepared (lib : Libraries) (tenantId runId agentId : Uuid) (tools : List ToolRecord) (force : Bool)
    (past : List (Performed signature)) : Prop where
  reads : ∃ run agent rows messages,
    ⟨.sql (.getRun tenantId runId), .ok (some run)⟩ ∈ past ∧
    ⟨.sql (.getAgent tenantId run.agentId), .ok (some agent)⟩ ∈ past ∧ agent.id = agentId ∧
    ⟨.sql (.listAgentTools tenantId agentId), .ok rows⟩ ∈ past ∧ tools = rows.map (toolFromRow lib) ∧
    ChatMessage.listFromValue run.inputMessages = some messages ∧ force = messages.any messageRequestsInvalidToolCall
  unsettled : past.any settles = false

/-- A decision of the loop may be recorded. -/
def CallDue (lib : Libraries) (tenantId runId : Uuid) (past : List (Performed signature)) (payload : Value) : Prop :=
  ∃ agentId tools force iteration decision, Prepared lib tenantId runId agentId tools force past ∧
    Chosen tools force decision ∧ payload = Payload.llmCall iteration decision.tracePayload

/-- An executed tool call may be recorded: right after the decision for it the tool was read, not deleted,
and then the bindings of the agent. -/
def ExecDue (lib : Libraries) (tenantId runId : Uuid) (past : List (Performed signature)) (payload : Value) : Prop :=
  ∃ before iteration decision toolId arguments row agentId ids result,
    past = before ++ [called tenantId runId iteration decision, ⟨.sql (.getTool tenantId toolId), .ok (some row)⟩,
      ⟨.sql (.getAgentToolIds tenantId agentId), .ok ids⟩] ∧
    decision.Names toolId arguments ∧ row.deletedAt = none ∧
    payload = Payload.toolExec (toolFromRow lib row) arguments result

/-- Right after the decision for it a tool was read and found deleted. -/
def DeletionFound (tenantId runId : Uuid) (past : List (Performed signature)) : Prop :=
  ∃ before iteration decision toolId arguments row,
    past = before ++ [called tenantId runId iteration decision, ⟨.sql (.getTool tenantId toolId), .ok (some row)⟩] ∧
    decision.Names toolId arguments ∧ row.deletedAt ≠ none

/-- After this history the task may execute the operation. -/
def Due (lib : Libraries) (tenantId runId : Uuid) (past : List (Performed signature)) : Op → Prop
  | .sql (.appendEvent _ _ .llmCall payload) => CallDue lib tenantId runId past payload
  | .sql (.appendEvent _ _ .toolExec payload) => ExecDue lib tenantId runId past payload
  | .sql (.finalizeRun _ _ _ _ reason) => reason = some "tool_deleted" → DeletionFound tenantId runId past
  | _ => True

theorem Prepared.append {agentId : Uuid} {tools : List ToolRecord} {force : Bool} {more : List (Performed signature)}
    (prepared : Prepared lib tenantId runId agentId tools force past) (quiet : more.any settles = false) :
    Prepared lib tenantId runId agentId tools force (past ++ more) where
  reads := by
    obtain ⟨run, agent, rows, messages, first, second, id, third, rest⟩ := prepared.reads
    exact ⟨run, agent, rows, messages, List.mem_append_left _ first, List.mem_append_left _ second, id,
      List.mem_append_left _ third, rest⟩
  unsettled := by rw [List.any_append, prepared.unsettled, quiet]; rfl

/-- What the decision of an iteration rests on: a forced call names the tool that was looked for right before,
and in a run that forces one an ordinary call follows an executed call. -/
inductive Picked (tenantId runId agentId : Uuid) (tools : List ToolRecord) (force : Bool) :
    List (Performed signature) → Int → LlmDecision → Prop
  | forced {earlier : List (Performed signature)} {iteration : Int} (found : Option ToolRow) (forces : force = true) :
      Picked tenantId runId agentId tools force
      (earlier ++ [⟨.sql (.findUnboundActiveTool tenantId agentId), .ok found⟩])
        iteration (.forced ((found.map ToolRow.id).getD Uuid.nil))
  | ordinary {past : List (Performed signature)} {tool : ToolRecord} (results : ℕ) (first : tools.head? = some tool)
      (used : force = true → ∃ payload, ⟨.sql (.appendEvent tenantId runId .toolExec payload), .ok ()⟩ ∈ past) :
      Picked tenantId runId agentId tools force past (results + 1) (.ordinary tool.id results)
  | final {past : List (Performed signature)} {iteration : Int} :
      Picked tenantId runId agentId tools force past iteration .final

/-- A decision was recorded, and these reads came right after it. -/
def Decided (lib : Libraries) (tenantId runId agentId : Uuid) (tools : List ToolRecord) (force : Bool)
    (decision : LlmDecision) (reads past : List (Performed signature)) : Prop :=
  ∃ before iteration, past = before ++ called tenantId runId iteration decision :: reads ∧
    Prepared lib tenantId runId agentId tools force before ∧
      Picked tenantId runId agentId tools force before iteration decision

/-- The reads for which the loop rejects a call, with the reason. -/
inductive Rejected (lib : Libraries) (tenantId agentId toolId : Uuid) (arguments : Value) :
    List (Performed signature) → String → Prop
  | missing : Rejected lib tenantId agentId toolId arguments [⟨.sql (.getTool tenantId toolId), .ok none⟩]
      "tool_not_allowed_for_agent"
  | deleted {row : ToolRow} (gone : row.deletedAt ≠ none) :
      Rejected lib tenantId agentId toolId arguments
      [⟨.sql (.getTool tenantId toolId), .ok (some row)⟩] "tool_deleted"
  | unbound {row : ToolRow} {ids : List Uuid} (other : toolId ∉ ids) :
      Rejected lib tenantId agentId toolId arguments [⟨.sql (.getTool tenantId toolId), .ok (some row)⟩,
        ⟨.sql (.getAgentToolIds tenantId agentId), .ok ids⟩] "tool_not_allowed_for_agent"
  | uncompiled {row : ToolRow} {ids : List Uuid} (active : row.deletedAt = none) (bound : toolId ∈ ids)
      (bad : lib.compile (toolFromRow lib row).inputSchema = none) :
      Rejected lib tenantId agentId toolId arguments [⟨.sql (.getTool tenantId toolId), .ok (some row)⟩,
        ⟨.sql (.getAgentToolIds tenantId agentId), .ok ids⟩] "invalid input schema"
  | invalid {row : ToolRow} {ids : List Uuid} {isValid : Value → Bool} (active : row.deletedAt = none)
      (bound : toolId ∈ ids) (compiled : lib.compile (toolFromRow lib row).inputSchema = some isValid)
      (rejects : isValid arguments = false) :
      Rejected lib tenantId agentId toolId arguments [⟨.sql (.getTool tenantId toolId), .ok (some row)⟩,
        ⟨.sql (.getAgentToolIds tenantId agentId), .ok ids⟩] "invalid_tool_arguments"

/-- Why the loop fails the run. -/
inductive FailsFor (lib : Libraries) (tenantId runId : Uuid) (past : List (Performed signature)) : String → Prop
  | exhausted : FailsFor lib tenantId runId past "max_iterations_exceeded"
  | broken (failing : past.any failed = true) : FailsFor lib tenantId runId past "internal_error"
  | rejected {agentId toolId : Uuid} {tools : List ToolRecord} {force : Bool} {decision : LlmDecision}
      {arguments : Value} {reads : List (Performed signature)} {reason : String}
      (decided : Decided lib tenantId runId agentId tools force decision reads past)
      (kind : decision.kind = .toolCall toolId arguments)
      (refused : Rejected lib tenantId agentId toolId arguments reads reason) :
      FailsFor lib tenantId runId past reason

/-- A call that was authorised and validated by the reads right before, with its result. -/
inductive Cleared (lib : Libraries) (tenantId runId : Uuid) (past : List (Performed signature)) : ToolRecord →
    Value → Value → Prop
  | intro {agentId toolId : Uuid} {tools : List ToolRecord} {force : Bool} {decision : LlmDecision}
      {arguments result : Value} {row : ToolRow} {ids : List Uuid}
      (decided : Decided lib tenantId runId agentId tools force decision
        [⟨.sql (.getTool tenantId toolId), .ok (some row)⟩, ⟨.sql (.getAgentToolIds tenantId agentId), .ok ids⟩] past)
      (kind : decision.kind = .toolCall toolId arguments) (active : row.deletedAt = none) (bound : toolId ∈ ids)
      (accepts : lib.Accepts (toolFromRow lib row).inputSchema arguments)
      (handled : executeMockHandler (toolFromRow lib row).mockHandler = .ok result) :
      Cleared lib tenantId runId past (toolFromRow lib row) arguments result

/-- After this history the task has every reason to execute the operation. -/
def Justified (lib : Libraries) (tenantId runId : Uuid) (past : List (Performed signature)) : Op → Prop
  | .sql (.appendEvent _ _ .llmCall payload) => ∃ agentId tools force iteration decision,
      Prepared lib tenantId runId agentId tools force past ∧
        Picked tenantId runId agentId tools force past iteration decision ∧
        payload = Payload.llmCall iteration decision.tracePayload
  | .sql (.appendEvent _ _ .toolExec payload) => ∃ tool arguments result,
      Cleared lib tenantId runId past tool arguments result ∧ payload = Payload.toolExec tool arguments result
  | .sql (.finalizeRun _ _ _ _ errorReason) => ∀ reason, errorReason = some reason →
      FailsFor lib tenantId runId past reason
  | .sql (.listAgentTools ..) => past.findSome? listedTools? = none
  | .sql (.beginRunExecution ..) => past = []
  | _ => True

theorem Picked.chosen {agentId : Uuid} {tools : List ToolRecord} {force : Bool} {iteration : Int}
    {decision : LlmDecision} (picked : Picked tenantId runId agentId tools force past iteration decision) :
    Chosen tools force decision := by
  cases picked with
  | forced found forces => exact .forced _ forces
  | ordinary results first used => exact .ordinary first results
  | final => exact .final

theorem FailsFor.deletionFound {reason : String} (fails : FailsFor lib tenantId runId past reason)
    (deleted : reason = "tool_deleted") : DeletionFound tenantId runId past := by
  cases fails with
  | exhausted => cases (by decide : "max_iterations_exceeded" ≠ "tool_deleted") deleted
  | broken failing => cases (by decide : "internal_error" ≠ "tool_deleted") deleted
  | rejected decided kind refused =>
    obtain ⟨before, iteration, rfl, _, picked⟩ := decided
    cases refused with
    | missing | unbound other => cases (by decide : "tool_not_allowed_for_agent" ≠ "tool_deleted") deleted
    | uncompiled active bound bad => cases (by decide : "invalid input schema" ≠ "tool_deleted") deleted
    | invalid active bound compiled rejects => cases (by decide : "invalid_tool_arguments" ≠ "tool_deleted") deleted
    | deleted gone => exact ⟨before, iteration, _, _, _, _, rfl, picked.chosen.names kind, gone⟩

theorem Justified.due {op : Op} (justified : Justified lib tenantId runId past op) :
    Due lib tenantId runId past op := by
  unfold Due
  split
  · obtain ⟨agentId, tools, force, iteration, decision, prepared, picked, same⟩ := justified
    exact ⟨agentId, tools, force, iteration, decision, prepared, picked.chosen, same⟩
  · obtain ⟨_, _, _, ⟨decided, kind, active, _, _, _⟩, rfl⟩ := justified
    obtain ⟨before, iteration, rfl, _, picked⟩ := decided
    exact ⟨before, iteration, _, _, _, _, _, _, _, rfl, picked.chosen.names kind, active, rfl⟩
  · exact fun same => (justified _ same).deletionFound rfl
  · trivial

/-! ## The loop -/

theorem along_failRun {reason : String} (fails : FailsFor lib tenantId runId past reason) :
    (failRun tenantId runId reason).Along (Justified lib tenantId runId) (fun _ _ => True) past := by
  refine Program.Along.bind (fun _ _ => True) (Program.Along.bind (fun _ _ => True) ?_ (fun _ _ _ => True.intro)
    fun _ _ _ => True.intro) (fun past _ _ => ?_) fun _ _ _ => True.intro
  · refine along_query (fun other same => ?_) (fun _ => True.intro) fun _ => True.intro
    cases same
    exact fails
  · exact along_query True.intro (fun _ => True.intro) fun _ => True.intro

/-- What a decision of the mock LLM adds to the history. -/
theorem along_mockLlmDecision {agentId : Uuid} {tools : List ToolRecord} {force : Bool} {iteration : Int}
    {results : ℕ} {consumed : Bool} (count : iteration = results + 1)
    (prepared : Prepared lib tenantId runId agentId tools force past)
    (used : consumed = true → ∃ payload, ⟨.sql (.appendEvent tenantId runId .toolExec payload), .ok ()⟩ ∈ past) :
    (mockLlmDecision lib tenantId agentId tools results (force && !consumed)).Along (Justified lib tenantId runId)
      (fun later result => ∀ decision, result = .ok decision → (∃ more, later = past ++ more) ∧
        Prepared lib tenantId runId agentId tools force later ∧
          Picked tenantId runId agentId tools force later iteration decision) past := by
  subst count
  unfold mockLlmDecision
  split
  · next forces =>
    have forces := (Bool.and_eq_true_iff.mp forces).1
    refine ⟨True.intro, fun answer => ?_⟩
    rcases answer with fault | found
    · rintro _ ⟨⟩
    cases found with
    | none => rintro _ ⟨⟩; exact ⟨⟨_, rfl⟩, prepared.append rfl, .forced none forces⟩
    | some tool => rintro _ ⟨⟩; exact ⟨⟨_, rfl⟩, prepared.append rfl, .forced (some tool) forces⟩
  · next free =>
    have used (forces : force = true) :
        ∃ payload, ⟨.sql (.appendEvent tenantId runId .toolExec payload), .ok ()⟩ ∈ past :=
      used (by simpa [forces] using free)
    split
    · cases first : tools.head? with
      | none => rintro _ ⟨⟩
      | some tool => rintro _ ⟨⟩; exact ⟨⟨[], by simp⟩, prepared, .ordinary results first used⟩
    · rintro _ ⟨⟩; exact ⟨⟨[], by simp⟩, prepared, .final⟩

/-- What `authorize_tool_call` has read when it returns. -/
inductive Answered (lib : Libraries) (tenantId agentId toolId : Uuid) (past : List (Performed signature)) :
    List (Performed signature) → Except AppError ToolRecord → Prop
  | allowed {row : ToolRow} {ids : List Uuid} (active : row.deletedAt = none) (bound : toolId ∈ ids) :
      Answered lib tenantId agentId toolId past (past ++ [⟨.sql (.getTool tenantId toolId), .ok (some row)⟩,
        ⟨.sql (.getAgentToolIds tenantId agentId), .ok ids⟩]) (.ok (toolFromRow lib row))
  | missing : Answered lib tenantId agentId toolId past (past ++ [⟨.sql (.getTool tenantId toolId), .ok none⟩])
        (.error (.badRequest "tool_not_allowed_for_agent"))
  | deleted {row : ToolRow} (gone : row.deletedAt ≠ none) :
      Answered lib tenantId agentId toolId past (past ++ [⟨.sql (.getTool tenantId toolId), .ok (some row)⟩])
        (.error (.badRequest "tool_deleted"))
  | unbound {row : ToolRow} {ids : List Uuid} (other : toolId ∉ ids) :
      Answered lib tenantId agentId toolId past (past ++ [⟨.sql (.getTool tenantId toolId), .ok (some row)⟩,
        ⟨.sql (.getAgentToolIds tenantId agentId), .ok ids⟩]) (.error (.badRequest "tool_not_allowed_for_agent"))
  | broken {later : List (Performed signature)} {error : SqlxError} (failing : later.any failed = true) :
      Answered lib tenantId agentId toolId past later (.error (.db error))

theorem along_authorizeToolCall {agentId toolId : Uuid} :
    (authorizeToolCall lib tenantId agentId toolId).Along (Justified lib tenantId runId)
    (Answered lib tenantId agentId toolId past) past := by
  refine ⟨True.intro, fun answer => ?_⟩
  rcases answer with fault | _ | row
  · exact .broken (by simp [failed])
  · exact .missing
  obtain ⟨id, owner, name, inputSchema, mockHandler, createdAt, deletedAt⟩ := row
  cases deletedAt with
  | some time => exact .deleted nofun
  | none =>
    refine ⟨True.intro, fun answer => ?_⟩
    rw [List.append_assoc]
    rcases answer with fault | ids
    · exact .broken (by simp [failed])
    change (if toolId ∈ ids then pure _ else throw _ : Act ToolRecord).Along _ _ _
    split
    · next bound => exact .allowed rfl bound
    · next other => exact .unbound other

/-- Why a call that was authorised is not valid. -/
theorem validateToolArguments_rejected {agentId toolId : Uuid} {row : ToolRow} {ids : List Uuid} {arguments : Value}
    {fault : AppError} (active : row.deletedAt = none) (bound : toolId ∈ ids)
    (refused : validateToolArguments lib (toolFromRow lib row).inputSchema arguments = .error fault) :
    Rejected lib tenantId agentId toolId arguments [⟨.sql (.getTool tenantId toolId), .ok (some row)⟩,
      ⟨.sql (.getAgentToolIds tenantId agentId), .ok ids⟩] (normalizeErrorReason fault) := by
  unfold validateToolArguments at refused
  split at refused
  · next bad =>
    cases refused
    exact .uncompiled active bound bad
  · next isValid compiled =>
    split at refused
    · cases refused
    · next rejects =>
      cases refused
      exact .invalid active bound compiled (by simpa using rejects)

theorem along_agentLoop {agent : AgentRecord} {tools : List ToolRecord} {force : Bool} (remaining : ℕ)
    {iteration : Int} {results : ℕ} (consumed : Bool) (count : iteration = results + 1)
    (prepared : Prepared lib tenantId runId agent.id tools force past)
    (used : consumed = true → ∃ payload, ⟨.sql (.appendEvent tenantId runId .toolExec payload), .ok ()⟩ ∈ past) :
    (agentLoop lib tenantId runId agent tools force remaining iteration results consumed).Along
    (Justified lib tenantId runId)
      (fun _ _ => True) past := by
  induction remaining generalizing iteration results consumed past with
  | zero => exact along_failRun .exhausted
  | succ remaining ih =>
    refine Program.Along.bind _ (along_mockLlmDecision count prepared used) (fun later decision picked => ?_)
      fun _ _ _ => True.intro
    obtain ⟨⟨more, rfl⟩, prepared, picked⟩ := picked decision rfl
    refine ⟨⟨_, _, _, _, _, prepared, picked, rfl⟩, fun answer => ?_⟩
    cases answer with
    | error fault => trivial
    | ok done =>
      have decided (reads : List (Performed signature)) :
          Decided lib tenantId runId agent.id tools force decision reads
          (past ++ more ++ [called tenantId runId iteration decision] ++ reads) :=
        ⟨past ++ more, iteration, by simp, prepared, picked⟩
      have prepared : Prepared lib tenantId runId agent.id tools force
          (past ++ more ++ [called tenantId runId iteration decision]) :=
        prepared.append rfl
      have fails {later : List (Performed signature)} (fault : AppError)
          (fails : FailsFor lib tenantId runId later (normalizeErrorReason fault)) : (do
            failRun tenantId runId (normalizeErrorReason fault)
            throw fault : Act Unit).Along (Justified lib tenantId runId) (fun _ _ => True) later :=
        Program.Along.bind _ (along_failRun fails) (fun _ _ _ => True.intro) fun _ _ _ => True.intro
      obtain ⟨kind, payload⟩ := decision
      cases kind with
      | finalAnswer answer =>
        refine Program.Along.bind (fun _ _ => True) (Program.Along.bind (fun _ _ => True) ?_ (fun _ _ _ => True.intro)
          fun _ _ _ => True.intro) (fun past _ _ => ?_) fun _ _ _ => True.intro
        · exact along_query nofun (fun _ => True.intro) fun _ => True.intro
        · exact along_query True.intro (fun _ => True.intro) fun _ => True.intro
      | toolCall toolId arguments =>
        refine Program.Along.bind (fun later result => ∃ answer, result = .ok answer ∧
          Answered lib tenantId agent.id toolId
          (past ++ more ++ [called tenantId runId iteration ⟨.toolCall toolId arguments, payload⟩]) later answer)
          (Program.Along.handle _ along_authorizeToolCall fun _ _ answered =>
            ⟨_, rfl, answered⟩) ?_ fun _ _ _ => True.intro
        rintro later _ ⟨answer, ⟨⟩, answered⟩
        cases answered with
        | missing => exact fails _ (.rejected (decided _) rfl .missing)
        | deleted gone => exact fails _ (.rejected (decided _) rfl (.deleted gone))
        | unbound other => exact fails _ (.rejected (decided _) rfl (.unbound other))
        | broken failing => exact fails _ (.broken failing)
        | @allowed row ids active bound =>
          dsimp only
          split
          · next fault refused =>
              exact fails _ (.rejected (decided _) rfl (validateToolArguments_rejected active bound refused))
          · next valid =>
            cases executed : executeMockHandler (toolFromRow lib row).mockHandler with
            | error fault => trivial
            | ok result =>
              refine ⟨⟨_, _, _, .intro (decided _) rfl active bound (validateToolArguments_ok.mp valid) executed,
                rfl⟩, fun answer => ?_⟩
              cases answer with
              | error fault => trivial
              | ok done =>
                exact ih _ (by push_cast; omega) ((prepared.append rfl).append rfl) fun _ =>
                  ⟨Payload.toolExec (toolFromRow lib row) arguments result,
                    List.mem_append_right _ (List.mem_singleton_self _)⟩

/-! ## The whole task -/

theorem along_executeStartedRun (unsettled : past.any settles = false)
    (unlisted : past.findSome? listedTools? = none) :
    (executeStartedRun lib tenantId runId).Along (Justified lib tenantId runId) (fun _ _ => True) past := by
  refine ⟨True.intro, fun accepted => ?_⟩
  rcases accepted with fault | done
  · trivial
  refine ⟨True.intro, fun logged => ?_⟩
  rcases logged with fault | done
  · trivial
  refine ⟨True.intro, fun found => ?_⟩
  rcases found with fault | _ | run
  · trivial
  · trivial
  refine ⟨True.intro, fun found => ?_⟩
  rcases found with fault | _ | agent
  · trivial
  · trivial
  refine ⟨by simp [Justified, List.findSome?_append, unlisted, listedTools?], fun listed => ?_⟩
  rcases listed with fault | rows
  · trivial
  change (okOr (ChatMessage.listFromValue (lib.decodeJson run.inputMessages)) .serdeJson >>= _ : Act Unit).Along _ _ _
  rw [ChatMessage.listFromValue_decodeJson]
  cases parsed : ChatMessage.listFromValue run.inputMessages with
  | none => trivial
  | some messages =>
    refine along_agentLoop _ _ rfl ⟨⟨run, agent, rows, messages, ?_, ?_, rfl, ?_, rfl, parsed, rfl⟩, ?_⟩ nofun
    · simp
    · exact List.mem_append_left _ (List.mem_append_right _ List.mem_cons_self)
    · exact List.mem_append_right _ List.mem_cons_self
    · simp [unsettled, settles]

/-- Every statement of the task is justified when it is executed. -/
theorem along_task : (Task.body lib (.executeRun tenantId runId)).Along (Justified lib tenantId runId)
    (fun _ _ => True) [] := by
  obtain ⟨begun, begins, body, idle⟩ : ∃ next, executeRun lib tenantId runId = _ ∧ _ := executeRun_eq_call
  have work : (executeRun lib tenantId runId).Along (Justified lib tenantId runId) (fun _ _ => True) [] := by
    rw [begins]
    refine ⟨rfl, fun answer => ?_⟩
    by_cases begins' : answer = .ok 1
    · subst begins'
      rw [body]
      exact along_executeStartedRun rfl rfl
    · obtain ⟨result, stops⟩ := idle answer begins'
      rw [stops]
      trivial
  refine Program.Along.bind (fun _ _ => True) (Program.Along.handle _ work fun _ _ _ => ?_) (fun _ _ _ => True.intro)
    fun _ _ _ => True.intro
  exact ⟨True.intro, fun _ => ⟨True.intro, fun _ => True.intro⟩⟩

end AgentPlatform
