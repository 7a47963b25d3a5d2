import AgentPlatform.Model.Runtime

/-! # `http.rs` and the whole server

The handlers, and the machine that runs them: any request may arrive at any time, and the tasks of
runs are started by `spawn` only.
-/

set_option autoImplicit false

namespace AgentPlatform

open Interleaving

inductive Request
  | createTenant (request : CreateTenantRequest)
  | createApiKey (tenantId : Uuid)
  | createTool (headers : HeaderMap) (request : CreateToolRequest)
  | listTools (headers : HeaderMap)
  | deleteTool (headers : HeaderMap) (toolId : Uuid)
  | createAgent (headers : HeaderMap) (request : CreateAgentRequest)
  | getAgent (headers : HeaderMap) (agentId : Uuid)
  | startRun (headers : HeaderMap) (agentId : Uuid) (request : StartRunRequest)
  | getRun (headers : HeaderMap) (runId : Uuid)
  | getTrace (headers : HeaderMap) (runId : Uuid)

/-- The headers of the requests that authenticate. -/
def Request.headers? : Request → Option HeaderMap
  | .createTenant _ | .createApiKey _ => none
  | .createTool headers _ | .listTools headers | .deleteTool headers _ | .createAgent headers _ |
    .getAgent headers _ | .startRun headers .. | .getRun headers _ | .getTrace headers _ => some headers

inductive Response
  | tenant (tenantId : Uuid) (name : String)
  | apiKey (apiKey warning : String)
  | tool (response : ToolResponse)
  | tools (response : List ToolResponse)
  | deleted
  | agent (response : AgentResponse)
  | runStarted (response : StartRunResponse)
  | run (response : RunResponse)
  | trace (response : List TraceEventResponse)
  /-- `execute_run` has nobody to answer. -/
  | executed

variable (lib : Libraries)

namespace Http

def createTenant (request : CreateTenantRequest) : Act Response := do
  if (trim request.name).isEmpty then throw (.badRequest "tenant name cannot be empty")
  else
    let (tenantId, name) ← Db.createTenant (trim request.name)
    return .tenant tenantId name

def createApiKey (tenantId : Uuid) : Act Response := do
  let (apiKey, keyPrefix, keyHash) ← generateApiKey lib
  Db.createApiKey tenantId keyPrefix keyHash
  return .apiKey apiKey "This key is shown only once. Store it securely."

def toolResponse (tool : ToolRecord) : ToolResponse :=
  ⟨tool.id, tool.name, tool.inputSchema, tool.mockHandler, tool.createdAt⟩

def createTool (tenant : TenantContext) (request : CreateToolRequest) : Act Response := do
  if (trim request.name).isEmpty then throw (.badRequest "tool name cannot be empty")
  else if !request.inputSchema.isObject || !request.mockHandler.isObject then
    throw (.badRequest "input_schema and mock_handler must be JSON objects")
  else
    let tool ← Db.createTool lib tenant.tenantId (trim request.name) request.inputSchema request.mockHandler
    return .tool (toolResponse tool)

def listTools (tenant : TenantContext) : Act Response := do
  let tools ← Db.listTools lib tenant.tenantId
  return .tools (tools.map toolResponse)

def deleteTool (tenant : TenantContext) (toolId : Uuid) : Act Response := do
  Db.deleteTool tenant.tenantId toolId
  return .deleted

def agentResponse (agent : AgentRecord) (toolIds : List Uuid) : AgentResponse :=
  ⟨agent.id, agent.name, agent.systemPrompt, toolIds, agent.maxIterations, agent.createdAt⟩

def createAgent (tenant : TenantContext) (request : CreateAgentRequest) : Act Response := do
  if (trim request.systemPrompt).isEmpty then throw (.badRequest "system_prompt cannot be empty")
  else
    let agent ← Db.createAgent tenant.tenantId (request.name.map trim) (trim request.systemPrompt)
      request.toolIds request.maxIterations
    let toolIds ← Db.getAgentToolIds tenant.tenantId agent.id
    return .agent (agentResponse agent toolIds)

def getAgent (tenant : TenantContext) (agentId : Uuid) : Act Response := do
  let agent ← okOr (← Db.getAgent tenant.tenantId agentId) .notFound
  let toolIds ← Db.getAgentToolIds tenant.tenantId agent.id
  return .agent (agentResponse agent toolIds)

/-- The `Idempotency-Key` of a request: readable, trimmed and not empty. -/
def idempotencyKey (headers : HeaderMap) : Option String := do
  let value ← (← headers.idempotencyKey).toStr
  if (trim value).isEmpty then none else some (trim value)

/-- What `start_run` does with a run it has just created. -/
def startCreatedRun (tenantId runId : Uuid) : Act Unit := do
  Trace.appendEvent tenantId runId .runCreated Payload.runCreated
  scheduleRun tenantId runId

def startRun (headers : HeaderMap) (tenant : TenantContext) (agentId : Uuid) (request : StartRunRequest) :
    Act Response := do
  let agent ← okOr (← Db.getAgent tenant.tenantId agentId) .notFound
  if request.messages.isEmpty then throw (.badRequest "messages cannot be empty")
  else
    let (run, created) ← Db.createOrGetRun lib tenant.tenantId agent.id
      (ChatMessage.listToValue request.messages) (idempotencyKey headers)
    if created then
      startCreatedRun tenant.tenantId run.id
      return .runStarted ⟨run.id, .pending⟩
    else return .runStarted ⟨run.id, run.status⟩

def runResponse (run : RunRecord) : RunResponse :=
  ⟨run.id, run.agentId, run.status, run.finalAnswer, run.errorReason, run.createdAt, run.startedAt,
    run.finishedAt⟩

def getRun (tenant : TenantContext) (runId : Uuid) : Act Response := do
  let run ← okOr (← Db.getRun lib tenant.tenantId runId) .notFound
  return .run (runResponse run)

def traceEventResponse (trace : TraceRecord) : TraceEventResponse :=
  ⟨trace.seq, trace.eventType, trace.payload, trace.createdAt⟩

def getTrace (tenant : TenantContext) (runId : Uuid) : Act Response := do
  let traces ← Db.getTrace lib tenant.tenantId runId
  return .trace (traces.map traceEventResponse)

end Http

/-- What an authenticated request does on behalf of its tenant. -/
def Request.onBehalf (tenant : TenantContext) : Request → Act Response
  | .createTenant request => Http.createTenant request
  | .createApiKey tenantId => Http.createApiKey lib tenantId
  | .createTool _ request => Http.createTool lib tenant request
  | .listTools _ => Http.listTools lib tenant
  | .deleteTool _ toolId => Http.deleteTool tenant toolId
  | .createAgent _ request => Http.createAgent tenant request
  | .getAgent _ agentId => Http.getAgent tenant agentId
  | .startRun headers agentId request => Http.startRun lib headers tenant agentId request
  | .getRun _ runId => Http.getRun lib tenant runId
  | .getTrace _ runId => Http.getTrace lib tenant runId

/-- The handler of a request: every authenticated handler begins with `auth::authenticate`. -/
def Request.handler (request : Request) : Act Response :=
  match request with
  | .createTenant request => Http.createTenant request
  | .createApiKey tenantId => Http.createApiKey lib tenantId
  | .createTool headers _ | .listTools headers | .deleteTool headers _ | .createAgent headers _ |
    .getAgent headers _ | .startRun headers .. | .getRun headers _ | .getTrace headers _ => do
      let tenant ← authenticate lib headers
      request.onBehalf lib tenant

inductive Task
  | http (request : Request)
  | executeRun (tenantId runId : Uuid)

def Task.body : Task → Act Response
  | .http request => request.handler lib
  | .executeRun tenantId runId => do
      executeRunTask lib tenantId runId
      return .executed

/-- Requests come from outside, tasks do not. -/
def Task.arrives : Task → Bool
  | .http _ => true
  | .executeRun .. => false

/-- The server with its database and its scheduler. -/
@[reducible] def platform (config : Config) : Machine where
  sig := signature
  Shared := World
  Owned := List SemaphoreRef
  Choice := Choice
  Task := Task
  Fault := AppError
  Value := Response
  exec := Op.exec config Task.executeRun
  body := Task.body lib
  arrives := Task.arrives
  fresh := []

/-- The server right after its start on an empty database. -/
def started (config : Config) : Pool (platform lib config) := ⟨World.new config, []⟩

end AgentPlatform
