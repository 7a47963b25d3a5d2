import AgentPlatform.Model.Machine

/-! # `db.rs` and `trace.rs`

The data access functions as programs over the statements. The two functions that open a
transaction roll it back on every error, because dropping the transaction handle does.
-/

set_option autoImplicit false

namespace AgentPlatform

open Interleaving

structure ApiKeyRecord where
  tenantId : Uuid
  keyHash : String

structure ToolRecord where
  id : Uuid
  name : String
  inputSchema : Value
  mockHandler : Value
  createdAt : Timestamp
  deletedAt : Option Timestamp

structure AgentRecord where
  id : Uuid
  name : Option String
  systemPrompt : String
  maxIterations : Int
  createdAt : Timestamp

structure RunRecord where
  id : Uuid
  agentId : Uuid
  status : RunStatus
  inputMessages : Value
  finalAnswer : Option String
  errorReason : Option String
  createdAt : Timestamp
  startedAt : Option Timestamp
  finishedAt : Option Timestamp

structure TraceRecord where
  seq : Int
  eventType : EventType
  payload : Value
  createdAt : Timestamp

variable (lib : Libraries)

/-- The JSON columns are decoded from the text that the database stored. -/
def toolFromRow (row : ToolRow) : ToolRecord :=
  ⟨row.id, row.name, lib.decodeJson row.inputSchema, lib.decodeJson row.mockHandler, row.createdAt, row.deletedAt⟩

def agentFromRow (row : AgentRow) : AgentRecord :=
  ⟨row.id, row.name, row.systemPrompt, row.maxIterations, row.createdAt⟩

/-- The tenant and the idempotency key of the row are not part of the record. -/
def runFromRow (row : RunRow) : RunRecord :=
  ⟨row.id, row.agentId, row.status, lib.decodeJson row.inputMessages, row.finalAnswer, row.errorReason,
    row.createdAt, row.startedAt, row.finishedAt⟩

namespace Db

def createTenant (name : String) : Act (Uuid × String) := do
  let row ← query (.createTenant name)
  return (row.id, row.name)

def createApiKey (tenantId : Uuid) (keyPrefix keyHash : String) : Act Unit :=
  query (.createApiKey tenantId keyPrefix keyHash)

/-- At most one key has a given prefix, because `key_prefix` is unique. -/
def findActiveApiKeyByPrefix (keyPrefix : String) : Act (Option ApiKeyRecord) := do
  let row ← query (.findActiveApiKeyByPrefix keyPrefix)
  return row.map fun row => ⟨row.tenantId, row.keyHash⟩

/-- Only a violation of the unique index on active names is told apart from the other database errors. -/
def createTool (tenantId : Uuid) (name : String) (inputSchema mockHandler : Value) : Act ToolRecord := do
  match ← attempt (.createTool tenantId name inputSchema mockHandler) with
  | .ok row => return toolFromRow lib row
  | .error (.database .uqToolsTenantNameActive) => throw .duplicateName
  | .error error => throw (.db error)

def listTools (tenantId : Uuid) : Act (List ToolRecord) := do
  let rows ← query (.listTools tenantId)
  return rows.map (toolFromRow lib)

/-- The row stays, with `deleted_at` set. A tool that is deleted already counts as missing. -/
def deleteTool (tenantId toolId : Uuid) : Act Unit := do
  let rowsAffected ← query (.deleteTool tenantId toolId)
  if rowsAffected = 0 then throw .notFound

/-- The body of the loop of `create_agent`. -/
def bindTool (tx tenantId agentId toolId : Uuid) : Act Unit := do
  let present ← query (.toolExists tx tenantId toolId)
  if present then query (.insertAgentTool tx tenantId agentId toolId)
  else throw .notFound

/-- The loop of `create_agent` over the requested tools. -/
def bindTools (tx tenantId agentId : Uuid) : List Uuid → Act Unit
  | [] => return ()
  | toolId :: rest => do
      bindTool tx tenantId agentId toolId
      bindTools tx tenantId agentId rest

/-- The agent and all its bindings are committed together, or none of them is. -/
def createAgent (tenantId : Uuid) (name : Option String) (systemPrompt : String) (toolIds : List Uuid)
    (maxIterations : Int) : Act AgentRecord := do
  let tx ← query .begin
  let transaction : Act AgentRecord := do
    let agent ← match ← attempt (.insertAgent tx tenantId name systemPrompt maxIterations) with
      | .ok row => pure (agentFromRow row)
      | .error (.database .uqAgentsTenantNameActive) => throw .duplicateName
      | .error error => throw (.db error)
    bindTools tx tenantId agent.id toolIds
    query (.commit tx)
    return agent
  transaction.onError (act (.rollback tx))

def getAgent (tenantId agentId : Uuid) : Act (Option AgentRecord) := do
  let row ← query (.getAgent tenantId agentId)
  return row.map agentFromRow

def getAgentToolIds (tenantId agentId : Uuid) : Act (List Uuid) :=
  query (.getAgentToolIds tenantId agentId)

/-- The run, and whether this request has inserted it. After a duplicate key the `SELECT` of the first run is sent in
the same transaction. -/
def createOrGetRun (tenantId agentId : Uuid) (inputMessages : Value) (idempotencyKey : Option String) :
    Act (RunRecord × Bool) := do
  let tx ← query .begin
  let transaction : Act (RunRecord × Bool) := do
    match ← attempt (.insertRun tx tenantId agentId inputMessages idempotencyKey) with
    | .ok row =>
        query (.commit tx)
        return (runFromRow lib row, true)
    | .error (.database .uqRunsIdempotency) =>
        let row ← okOr (← query (.findRunByKey tx tenantId agentId idempotencyKey)) (.db .rowNotFound)
        query (.commit tx)
        return (runFromRow lib row, false)
    | .error error => throw (.db error)
  transaction.onError (act (.rollback tx))

/-- Neither this function nor `finalize_run` looks at the number of rows that it updated. -/
def markRunFailed (tenantId runId : Uuid) (errorReason : String) : Act Unit := do
  let _rowsAffected ← query (.markRunFailed tenantId runId errorReason)

/-- `true` exactly for the caller whose update took the run from pending to running. -/
def beginRunExecution (tenantId runId : Uuid) : Act Bool := do
  let rowsAffected ← query (.beginRunExecution tenantId runId)
  return rowsAffected = 1

def getRun (tenantId runId : Uuid) : Act (Option RunRecord) := do
  let row ← query (.getRun tenantId runId)
  return row.map (runFromRow lib)

def getTrace (tenantId runId : Uuid) : Act (List TraceRecord) := do
  let rows ← query (.getTrace tenantId runId)
  return rows.map fun row => ⟨row.seq, row.type, lib.decodeJson row.payload, row.createdAt⟩

/-- A deleted tool is found as well: the caller looks at `deleted_at`. -/
def getTool (tenantId toolId : Uuid) : Act (Option ToolRecord) := do
  let row ← query (.getTool tenantId toolId)
  return row.map (toolFromRow lib)

/-- The bound tools in the order of their bindings, deleted ones included. -/
def listAgentTools (tenantId agentId : Uuid) : Act (List ToolRecord) := do
  let rows ← query (.listAgentTools tenantId agentId)
  return rows.map (toolFromRow lib)

/-- The oldest active tool of the tenant that the agent is not bound to. -/
def findUnboundActiveTool (tenantId agentId : Uuid) : Act (Option ToolRecord) := do
  let row ← query (.findUnboundActiveTool tenantId agentId)
  return row.map (toolFromRow lib)

def finalizeRun (tenantId runId : Uuid) (status : RunStatus) (finalAnswer errorReason : Option String) :
    Act Unit := do
  let _rowsAffected ← query (.finalizeRun tenantId runId status finalAnswer errorReason)

end Db

def Trace.appendEvent (tenantId runId : Uuid) (eventType : EventType) (payload : Value) : Act Unit :=
  query (.appendEvent tenantId runId eventType payload)

end AgentPlatform
