import AgentPlatform.Model.Auth

/-! # `runtime.rs`

Scheduling, the agent loop and the mock decisions. A permit is dropped when the function that owns
it returns: `schedule_run` owns the global permit until it hands both permits to the spawned task,
and the task drops its two parameters in reverse order. The tool messages that the loop collects
are never read, so they are not kept.
-/

set_option autoImplicit false

namespace AgentPlatform

open Interleaving

/-! ## Payloads -/

namespace Payload

def runCreated : Value := .object [("status", .string "pending")]

def accepted : Value := .object [("decision", .string "accepted")]

def rejected (reason : String) : Value :=
  .object [("decision", .string "rejected"), ("reason", .string reason)]

def runStarted : Value := .object [("status", .string "running")]

def llmCall (iteration : Int) (decision : Value) : Value :=
  .object [("iteration", .int iteration), ("decision", decision)]

def toolExec (tool : ToolRecord) (arguments result : Value) : Value :=
  .object [("tool_id", .uuid tool.id), ("tool_name", .string tool.name), ("arguments", arguments),
    ("result", result)]

def runEndSuccess (finalAnswer : String) : Value :=
  .object [("status", .string "success"), ("final_answer", .string finalAnswer)]

def runEndFailed (errorReason : String) : Value :=
  .object [("status", .string "failed"), ("error_reason", .string errorReason)]

end Payload

/-! ## Decisions of the mock LLM -/

inductive LlmDecisionKind
  | finalAnswer (answer : String)
  | toolCall (toolId : Uuid) (arguments : Value)

/-- A decision, with the payload that its `llm_call` event shows. -/
structure LlmDecision where
  kind : LlmDecisionKind
  tracePayload : Value

def LlmDecision.forced (toolId : Uuid) : LlmDecision where
  kind := .toolCall toolId (.object [("query", .string "forced invalid lookup")])
  tracePayload := .object [("type", .string "tool_call"), ("tool_id", .uuid toolId), ("forced", .bool true)]

/-- The arguments of the tool call after `toolResultCount` results. -/
def iterationArguments (toolResultCount : ℕ) : Value :=
  .object [("query", .string ("iteration-" ++ toString toolResultCount))]

def LlmDecision.ordinary (toolId : Uuid) (toolResultCount : ℕ) : LlmDecision where
  kind := .toolCall toolId (iterationArguments toolResultCount)
  tracePayload := .object [("type", .string "tool_call"), ("tool_id", .uuid toolId)]

def LlmDecision.final : LlmDecision where
  kind := .finalAnswer "Deterministic mock final answer."
  tracePayload := .object [("type", .string "final_answer")]

/-- Two calls of the first bound tool and then the answer. A forced decision names a tool that is not bound, or the nil
identifier when every tool is. -/
def mockLlmDecision (lib : Libraries) (tenantId agentId : Uuid) (boundTools : List ToolRecord) (toolResultCount : ℕ)
    (forceInvalidToolCall : Bool) : Act LlmDecision := do
  if forceInvalidToolCall then
    match ← Db.findUnboundActiveTool lib tenantId agentId with
    | some tool => return .forced tool.id
    | none => return .forced Uuid.nil
  else if toolResultCount < 2 then
    let tool ← okOr boundTools.head? (.internal "agent has no bound tools for deterministic loop")
    return .ordinary tool.id toolResultCount
  else return .final

/-! ## Tool calls -/

/-- The tool is looked up again at every call, and so are the bindings of the agent. -/
def authorizeToolCall (lib : Libraries) (tenantId agentId toolId : Uuid) : Act ToolRecord := do
  let tool ← okOr (← Db.getTool lib tenantId toolId) (.badRequest "tool_not_allowed_for_agent")
  if tool.deletedAt.isSome then throw (.badRequest "tool_deleted")
  else
    let allowedToolIds ← Db.getAgentToolIds tenantId agentId
    if toolId ∈ allowedToolIds then return tool
    else throw (.badRequest "tool_not_allowed_for_agent")

def messageRequestsInvalidToolCall (message : ChatMessage) : Bool :=
  message.role == "user" && containsText message.content invalidToolCallSentinel

/-- The schema is compiled at the call, not when the tool is created. -/
def validateToolArguments (lib : Libraries) (inputSchema arguments : Value) : Except AppError Unit :=
  match lib.compile inputSchema with
  | none => .error (.badRequest "invalid input schema")
  | some isValid => if isValid arguments then .ok () else .error .invalidToolArguments

/-- The reason that a refused call leaves in the run. -/
def normalizeErrorReason : AppError → String
  | .badRequest reason => reason
  | .invalidToolArguments => "invalid_tool_arguments"
  | .schedulerCapacityExceeded => "scheduler_capacity_exceeded"
  | .tenantConcurrencyLimitExceeded => "tenant_concurrency_limit_exceeded"
  | .notFound => "resource_not_found"
  | _ => "internal_error"

/-- A failing handler leaves the loop through `?`, before any status or event is written. -/
def executeMockHandler (mockHandler : Value) : Except AppError Value :=
  match (mockHandler.get "type").bind Value.asStr with
  | some "static" =>
      match mockHandler.get "response" with
      | some response => .ok response
      | none => .error (.badRequest "mock_handler.response is required")
  | _ => .error (.badRequest "only static mock handlers are supported")

/-! ## The agent loop -/

/-- `finalize_run` with `Failed` and the `run_end` event after it, as the three failing exits of
`execute_run` do it. -/
def failRun (tenantId runId : Uuid) (errorReason : String) : Act Unit := do
  Db.finalizeRun tenantId runId .failed none (some errorReason)
  Trace.appendEvent tenantId runId .runEnd (Payload.runEndFailed errorReason)

/-- The loop `for iteration in 1..=agent.max_iterations`, with `remaining` iterations to go. -/
def agentLoop (lib : Libraries) (tenantId runId : Uuid) (agent : AgentRecord)
    (boundTools : List ToolRecord) (forceInvalidToolCall : Bool) :
    (remaining : ℕ) → (iteration : Int) → (toolResultCount : ℕ) → (invalidTriggerConsumed : Bool) →
      Act Unit
  | 0, _, _, _ => failRun tenantId runId "max_iterations_exceeded"
  | remaining + 1, iteration, toolResultCount, invalidTriggerConsumed => do
      let llmDecision ← mockLlmDecision lib tenantId agent.id boundTools toolResultCount
        (forceInvalidToolCall && !invalidTriggerConsumed)
      Trace.appendEvent tenantId runId .llmCall (Payload.llmCall iteration llmDecision.tracePayload)
      match llmDecision.kind with
      | .finalAnswer answer => do
          Db.finalizeRun tenantId runId .success (some answer) none
          Trace.appendEvent tenantId runId .runEnd (Payload.runEndSuccess answer)
      | .toolCall toolId arguments => do
          match ← (authorizeToolCall lib tenantId agent.id toolId).attempt with
          | .error error => do
              failRun tenantId runId (normalizeErrorReason error)
              throw error
          | .ok tool =>
              match validateToolArguments lib tool.inputSchema arguments with
              | .error error => do
                  failRun tenantId runId (normalizeErrorReason error)
                  throw error
              | .ok () => do
                  let result ← okOrError (executeMockHandler tool.mockHandler)
                  Trace.appendEvent tenantId runId .toolExec (Payload.toolExec tool arguments result)
                  agentLoop lib tenantId runId agent boundTools forceInvalidToolCall remaining
                    (iteration + 1) (toolResultCount + 1) (invalidTriggerConsumed || forceInvalidToolCall)

/-- What `execute_run` does once the run is its own. -/
def executeStartedRun (lib : Libraries) (tenantId runId : Uuid) : Act Unit := do
  Trace.appendEvent tenantId runId .schedulerDecision Payload.accepted
  Trace.appendEvent tenantId runId .runStarted Payload.runStarted
  let run ← okOr (← Db.getRun lib tenantId runId) .notFound
  let agent ← okOr (← Db.getAgent tenantId run.agentId) .notFound
  let boundTools ← Db.listAgentTools lib tenantId agent.id
  let messages ← okOr (ChatMessage.listFromValue run.inputMessages) .serdeJson
  agentLoop lib tenantId runId agent boundTools (messages.any messageRequestsInvalidToolCall)
    agent.maxIterations.toNat 1 0 false

/-- Nothing happens to a run that another task has begun. -/
def executeRun (lib : Libraries) (tenantId runId : Uuid) : Act Unit := do
  let canStart ← Db.beginRunExecution tenantId runId
  if canStart then executeStartedRun lib tenantId runId else return ()

/-- The spawned task: the run, and then the drop of its permits. -/
def executeRunTask (lib : Libraries) (tenantId runId : Uuid) : Act Unit :=
  (executeRun lib tenantId runId).ensuring do
    act (.dropPermit (.tenant tenantId))
    act (.dropPermit .global)

/-! ## Scheduling -/

/-- How `schedule_run` settles a run that it rejects. -/
def failRunBeforeStart (tenantId runId : Uuid) (errorReason : String) (schedulerPayload : Value) :
    Act Unit := do
  Db.markRunFailed tenantId runId errorReason
  Trace.appendEvent tenantId runId .schedulerDecision schedulerPayload
  Trace.appendEvent tenantId runId .runEnd (Payload.runEndFailed errorReason)

/-- The part of `schedule_run` that owns the global permit. It asks for the permit of the tenant itself, and hands both
to the task. -/
def scheduleWithPermit (tenantId runId : Uuid) : Act Unit := do
  let tenantSemaphore ← act (.getTenantSemaphore tenantId)
  let acquired ← act (.tryAcquireOwned tenantSemaphore)
  if acquired then act (.spawn tenantId runId)
  else
    failRunBeforeStart tenantId runId "tenant_concurrency_limit_exceeded"
      (Payload.rejected "tenant_concurrency_limit_exceeded")
    throw .tenantConcurrencyLimitExceeded

/-- The global permit is asked for first, and given back only after a rejection has been written down. -/
def scheduleRun (tenantId runId : Uuid) : Act Unit := do
  let acquired ← act (.tryAcquireOwned .global)
  if acquired then (scheduleWithPermit tenantId runId).onError (act (.dropPermit .global))
  else
    failRunBeforeStart tenantId runId "scheduler_capacity_exceeded"
      (Payload.rejected "scheduler_capacity_exceeded")
    throw .schedulerCapacityExceeded

end AgentPlatform
