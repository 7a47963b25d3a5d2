import AgentPlatform.Relational.Staged
import AgentPlatform.Model.Types
import Mathlib.Data.List.Sort

/-! # Tables and SQL statements

The tables of the migration as lists of rows in the order of their insertion, and the statements
of `db.rs` and `trace.rs` with the answers and effects PostgreSQL gives them. A statement outside
a transaction commits by itself. Rows inserted inside a transaction stay pending until the commit:
other statements do not see them, but a unique index makes a conflicting `INSERT` wait. After an
error a transaction refuses every further statement.

`Choice` collects what the code leaves to its environment: a failing statement, the generated id,
the clock, the order of rows with equal sort keys, and random characters.
-/

set_option autoImplicit false

namespace AgentPlatform

open Relational

/-! ## Rows -/

structure TenantRow where
  id : Uuid
  name : String
  createdAt : Timestamp
deriving DecidableEq

structure ApiKeyRow where
  id : Uuid
  tenantId : Uuid
  keyPrefix : String
  keyHash : String
  createdAt : Timestamp
  revokedAt : Option Timestamp
deriving DecidableEq

structure ToolRow where
  id : Uuid
  tenantId : Uuid
  name : String
  inputSchema : Value
  mockHandler : Value
  createdAt : Timestamp
  deletedAt : Option Timestamp

structure AgentRow where
  id : Uuid
  tenantId : Uuid
  name : Option String
  systemPrompt : String
  maxIterations : Int
  createdAt : Timestamp
  deletedAt : Option Timestamp
deriving DecidableEq

structure AgentToolRow where
  tenantId : Uuid
  agentId : Uuid
  toolId : Uuid
  createdAt : Timestamp
deriving DecidableEq

structure RunRow where
  id : Uuid
  tenantId : Uuid
  agentId : Uuid
  status : RunStatus
  inputMessages : Value
  finalAnswer : Option String
  errorReason : Option String
  idempotencyKey : Option String
  createdAt : Timestamp
  startedAt : Option Timestamp
  finishedAt : Option Timestamp

structure TraceRow where
  id : Uuid
  tenantId : Uuid
  runId : Uuid
  seq : Int
  type : EventType
  payload : Value
  createdAt : Timestamp

/-- The idempotency scope of a run; rows without a key are outside the partial index. -/
def RunRow.scope (row : RunRow) : Option (Uuid × Uuid × String) :=
  row.idempotencyKey.map fun key => (row.tenantId, row.agentId, key)

/-- The entry of an agent in the partial index on active names. -/
def AgentRow.activeName (row : AgentRow) : Option (Uuid × String) :=
  if row.deletedAt = none then row.name.map fun name => (row.tenantId, name) else none

/-- The entry of a tool in the partial index on active names. -/
def ToolRow.activeName (row : ToolRow) : Option (Uuid × String) :=
  if row.deletedAt = none then some (row.tenantId, row.name) else none

/-- The committed contents of the database. -/
structure Store where
  tenants : List TenantRow := []
  apiKeys : List ApiKeyRow := []
  tools : List ToolRow := []
  agents : List AgentRow := []
  agentTools : List AgentToolRow := []
  runs : List RunRow := []
  runTraces : List TraceRow := []

structure Transaction where
  /-- The value of `now()` throughout the transaction. -/
  startedAt : Timestamp
  aborted : Bool
deriving DecidableEq

/-- The committed rows together with the open transactions and their uncommitted rows. -/
structure Database where
  store : Store := {}
  transactions : List (Uuid × Transaction) := []
  pendingAgents : List (Uuid × AgentRow) := []
  pendingAgentTools : List (Uuid × AgentToolRow) := []
  pendingRuns : List (Uuid × RunRow) := []

/-- A generated id is a version 4 UUID, so it is not the nil UUID. -/
structure Choice where
  fail : Bool := false
  id : Uuid := 1
  id_not_nil : id ≠ Uuid.nil := by decide
  now : Timestamp := 0
  tie : Uuid → ℕ := fun _ => 0
  chars : List Char := []

/-! ## Queries on the committed rows -/

/-- `ORDER BY created_at ASC`; rows created at the same time come in the order of `tie`. -/
def orderByCreatedAt {α : Type} (tie : Uuid → ℕ) (createdAt : α → Timestamp) (id : α → Uuid)
    (rows : List α) : List α :=
  rows.insertionSort fun a b =>
    createdAt a < createdAt b ∨ createdAt a = createdAt b ∧ tie (id a) ≤ tie (id b)

namespace Store

variable (s : Store)

def findApiKey (keyPrefix : String) : Option ApiKeyRow :=
  s.apiKeys.find? fun row => row.keyPrefix == keyPrefix && row.revokedAt == none

def findTool (tenantId toolId : Uuid) : Option ToolRow :=
  s.tools.find? fun row => row.tenantId == tenantId && row.id == toolId

def findAgent (tenantId agentId : Uuid) : Option AgentRow :=
  s.agents.find? fun row => row.tenantId == tenantId && row.id == agentId && row.deletedAt == none

def findRun (tenantId runId : Uuid) : Option RunRow :=
  s.runs.find? fun row => row.tenantId == tenantId && row.id == runId

def activeTools (tenantId : Uuid) : List ToolRow :=
  s.tools.filter fun row => row.tenantId == tenantId && row.deletedAt == none

def bindings (tenantId agentId : Uuid) : List AgentToolRow :=
  s.agentTools.filter fun row => row.tenantId == tenantId && row.agentId == agentId

/-- The tools that a binding joins with. -/
def joinTool (binding : AgentToolRow) : List ToolRow :=
  s.tools.filter fun row => row.tenantId == binding.tenantId && row.id == binding.toolId

def unboundTools (tenantId agentId : Uuid) : List ToolRow :=
  (s.activeTools tenantId).filter fun tool =>
    !s.agentTools.any fun row =>
      row.tenantId == tool.tenantId && row.agentId == agentId && row.toolId == tool.id

/-- The events of a run in the order of their insertion. -/
def traceRows (tenantId runId : Uuid) : List TraceRow :=
  s.runTraces.filter fun row => row.tenantId == tenantId && row.runId == runId

/-- `COALESCE(MAX(seq), 0) + 1`. -/
def nextSeq (tenantId runId : Uuid) : Int :=
  ((s.traceRows tenantId runId).map TraceRow.seq).foldl max 0 + 1

/-- `UPDATE runs ... WHERE ...`, with the number of affected rows. -/
def updateRuns (selected : RunRow → Bool) (update : RunRow → RunRow) : ℕ × Store :=
  (s.runs.countP selected,
    { s with runs := s.runs.map fun row => if selected row then update row else row })

end Store

/-! ## Statements -/

/-- The statements of the server. Each one belongs to the function of `db.rs` or `trace.rs` of the
same name; the two functions that open a transaction issue the statements that name one. -/
inductive Statement
  | createTenant (name : String)
  | createApiKey (tenantId : Uuid) (keyPrefix keyHash : String)
  | findActiveApiKeyByPrefix (keyPrefix : String)
  | createTool (tenantId : Uuid) (name : String) (inputSchema mockHandler : Value)
  | listTools (tenantId : Uuid)
  | deleteTool (tenantId toolId : Uuid)
  | begin
  | insertAgent (tx tenantId : Uuid) (name : Option String) (systemPrompt : String) (maxIterations : Int)
  | toolExists (tx tenantId toolId : Uuid)
  | insertAgentTool (tx tenantId agentId toolId : Uuid)
  | insertRun (tx tenantId agentId : Uuid) (inputMessages : Value) (idempotencyKey : Option String)
  | findRunByKey (tx tenantId agentId : Uuid) (idempotencyKey : Option String)
  | commit (tx : Uuid)
  | getAgent (tenantId agentId : Uuid)
  | getAgentToolIds (tenantId agentId : Uuid)
  | markRunFailed (tenantId runId : Uuid) (errorReason : String)
  | beginRunExecution (tenantId runId : Uuid)
  | getRun (tenantId runId : Uuid)
  | getTrace (tenantId runId : Uuid)
  | getTool (tenantId toolId : Uuid)
  | listAgentTools (tenantId agentId : Uuid)
  | findUnboundActiveTool (tenantId agentId : Uuid)
  | finalizeRun (tenantId runId : Uuid) (status : RunStatus) (finalAnswer errorReason : Option String)
  | appendEvent (tenantId runId : Uuid) (eventType : EventType) (payload : Value)

namespace Statement

/-- What a successful statement returns: a row, rows, a scalar, or the number of affected rows. -/
@[reducible] def Row : Statement → Type
  | createTenant .. => TenantRow
  | createApiKey .. => Unit
  | findActiveApiKeyByPrefix .. => Option ApiKeyRow
  | createTool .. => ToolRow
  | listTools .. => List ToolRow
  | deleteTool .. => ℕ
  | begin => Uuid
  | insertAgent .. => AgentRow
  | toolExists .. => Bool
  | insertAgentTool .. => Unit
  | insertRun .. => RunRow
  | findRunByKey .. => Option RunRow
  | commit .. => Unit
  | getAgent .. => Option AgentRow
  | getAgentToolIds .. => List Uuid
  | markRunFailed .. => ℕ
  | beginRunExecution .. => ℕ
  | getRun .. => Option RunRow
  | getTrace .. => List TraceRow
  | getTool .. => Option ToolRow
  | listAgentTools .. => List ToolRow
  | findUnboundActiveTool .. => Option ToolRow
  | finalizeRun .. => ℕ
  | appendEvent .. => Unit

/-- The transaction in which a statement runs. -/
def transaction? : Statement → Option Uuid
  | insertAgent tx .. | toolExists tx .. | insertAgentTool tx .. | insertRun tx .. |
    findRunByKey tx .. | commit tx => some tx
  | _ => none

end Statement

/-- The outcome of a statement that does not have to wait. -/
abbrev Outcome (α : Type) := Except SqlxError α × Database

namespace Database

variable (db : Database)

def findTransaction (tx : Uuid) : Option Transaction := db.transactions.lookup tx

/-- The uncommitted rows of a transaction disappear. -/
def discard (tx : Uuid) : Database :=
  { db with
    pendingAgents := without tx db.pendingAgents
    pendingAgentTools := without tx db.pendingAgentTools
    pendingRuns := without tx db.pendingRuns }

/-- An error inside a transaction undoes what it did; the transaction itself stays open. -/
def abort (tx : Uuid) : Database :=
  { db.discard tx with transactions := db.transactions.map fun entry =>
      if entry.1 = tx then (tx, { entry.2 with aborted := true }) else entry }

/-- Forget a transaction with all it inserted. -/
def rollback (tx : Uuid) : Database :=
  { db.discard tx with transactions := without tx db.transactions }

/-- Make the rows of a transaction part of the committed store. -/
def publish (tx : Uuid) : Database :=
  { db.rollback tx with store := { db.store with
      agents := db.store.agents ++ own tx db.pendingAgents
      agentTools := db.store.agentTools ++ own tx db.pendingAgentTools
      runs := db.store.runs ++ own tx db.pendingRuns } }

/-- Run a statement inside its transaction; an error it reports aborts the transaction. -/
def within {α : Type} (tx : Uuid) (statement : Transaction → Option (Except SqlxError (α × Database))) :
    Option (Outcome α) :=
  match db.findTransaction tx with
  | none => some (.error .unavailable, db)
  | some transaction =>
      if transaction.aborted then some (.error .inFailedSqlTransaction, db)
      else (statement transaction).map fun
        | .ok (row, next) => (.ok row, next)
        | .error error => (.error error, db.abort tx)

def insertAgent (c : Choice) (tx tenantId : Uuid) (name : Option String) (systemPrompt : String)
    (maxIterations : Int) : Option (Outcome AgentRow) :=
  db.within tx fun transaction =>
    let row : AgentRow := ⟨c.id, tenantId, name, systemPrompt, maxIterations, transaction.startedAt, none⟩
    let seen := visible tx db.store.agents db.pendingAgents
    let clash (other : AgentRow) : Bool := row.activeName != none && other.activeName == row.activeName
    if ¬ (0 < maxIterations ∧ maxIterations ≤ 50) then some (.error (.database .agentsMaxIterationsCheck))
    else if seen.any (·.id == c.id) then some (.error (.database .agentsPkey))
    else if (without tx db.pendingAgents).any (·.2.id == c.id) then none
    else if seen.any clash then some (.error (.database .uqAgentsTenantNameActive))
    else if (without tx db.pendingAgents).any (clash ·.2) then none
    else if !db.store.tenants.any (·.id == tenantId) then some (.error (.database .agentsTenantIdFkey))
    else some (.ok (row, { db with pendingAgents := db.pendingAgents ++ [(tx, row)] }))

def toolExists (tx tenantId toolId : Uuid) : Option (Outcome Bool) :=
  db.within tx fun _ =>
    some (.ok (db.store.tools.any fun row =>
      row.tenantId == tenantId && row.id == toolId && row.deletedAt == none, db))

def insertAgentTool (tx tenantId agentId toolId : Uuid) : Option (Outcome Unit) :=
  db.within tx fun transaction =>
    let row : AgentToolRow := ⟨tenantId, agentId, toolId, transaction.startedAt⟩
    let same (other : AgentToolRow) : Bool :=
      other.tenantId == tenantId && other.agentId == agentId && other.toolId == toolId
    let agents := visible tx db.store.agents db.pendingAgents
    if (visible tx db.store.agentTools db.pendingAgentTools).any same then
      some (.error (.database .agentToolsPkey))
    else if (without tx db.pendingAgentTools).any (same ·.2) then none
    else if !agents.any (fun agent => agent.tenantId == tenantId && agent.id == agentId) then
      some (.error (.database .agentToolsAgentFkey))
    else if !db.store.tools.any (fun tool => tool.tenantId == tenantId && tool.id == toolId) then
      some (.error (.database .agentToolsToolFkey))
    else some (.ok ((), { db with pendingAgentTools := db.pendingAgentTools ++ [(tx, row)] }))

def insertRun (c : Choice) (tx tenantId agentId : Uuid) (inputMessages : Value)
    (idempotencyKey : Option String) : Option (Outcome RunRow) :=
  db.within tx fun transaction =>
    let row : RunRow :=
      ⟨c.id, tenantId, agentId, .pending, inputMessages, none, none, idempotencyKey,
        transaction.startedAt, none, none⟩
    let seen := visible tx db.store.runs db.pendingRuns
    let clash (other : RunRow) : Bool := row.scope != none && other.scope == row.scope
    let agents := visible tx db.store.agents db.pendingAgents
    if !inputMessages.isArray then some (.error (.database .runsInputMessagesCheck))
    else if seen.any (·.id == c.id) then some (.error (.database .runsPkey))
    else if (without tx db.pendingRuns).any (·.2.id == c.id) then none
    else if seen.any clash then some (.error (.database .uqRunsIdempotency))
    else if (without tx db.pendingRuns).any (clash ·.2) then none
    else if !agents.any (fun agent => agent.tenantId == tenantId && agent.id == agentId) then
      some (.error (.database .runsAgentFkey))
    else some (.ok (row, { db with pendingRuns := db.pendingRuns ++ [(tx, row)] }))

def findRunByKey (tx tenantId agentId : Uuid) (idempotencyKey : Option String) :
    Option (Outcome (Option RunRow)) :=
  db.within tx fun _ =>
    some (.ok ((visible tx db.store.runs db.pendingRuns).find? fun row =>
      row.tenantId == tenantId && row.agentId == agentId && row.idempotencyKey != none &&
        row.idempotencyKey == idempotencyKey, db))

/-- Committing an aborted transaction rolls it back. -/
def commit (tx : Uuid) : Outcome Unit :=
  match db.findTransaction tx with
  | none => (.error .unavailable, db)
  | some transaction => (.ok (), if transaction.aborted then db.rollback tx else db.publish tx)

def createTenant (c : Choice) (name : String) : Outcome TenantRow :=
  let row : TenantRow := ⟨c.id, name, c.now⟩
  if db.store.tenants.any (·.id == c.id) then (.error (.database .tenantsPkey), db)
  else (.ok row, { db with store := { db.store with tenants := db.store.tenants ++ [row] } })

def createApiKey (c : Choice) (tenantId : Uuid) (keyPrefix keyHash : String) : Outcome Unit :=
  let row : ApiKeyRow := ⟨c.id, tenantId, keyPrefix, keyHash, c.now, none⟩
  if db.store.apiKeys.any (·.id == c.id) then (.error (.database .apiKeysPkey), db)
  else if db.store.apiKeys.any (·.keyPrefix == keyPrefix) then
    (.error (.database .uqApiKeysKeyPrefix), db)
  else if !db.store.tenants.any (·.id == tenantId) then (.error (.database .apiKeysTenantIdFkey), db)
  else (.ok (), { db with store := { db.store with apiKeys := db.store.apiKeys ++ [row] } })

def createTool (c : Choice) (tenantId : Uuid) (name : String) (inputSchema mockHandler : Value) :
    Outcome ToolRow :=
  let row : ToolRow := ⟨c.id, tenantId, name, inputSchema, mockHandler, c.now, none⟩
  if !inputSchema.isObject then (.error (.database .toolsInputSchemaCheck), db)
  else if !mockHandler.isObject then (.error (.database .toolsMockHandlerCheck), db)
  else if db.store.tools.any (·.id == c.id) then (.error (.database .toolsPkey), db)
  else if db.store.tools.any (·.activeName == row.activeName) then
    (.error (.database .uqToolsTenantNameActive), db)
  else if !db.store.tenants.any (·.id == tenantId) then (.error (.database .toolsTenantIdFkey), db)
  else (.ok row, { db with store := { db.store with tools := db.store.tools ++ [row] } })

def deleteTool (c : Choice) (tenantId toolId : Uuid) : Outcome ℕ :=
  let selected (row : ToolRow) : Bool :=
    row.tenantId == tenantId && row.id == toolId && row.deletedAt == none
  (.ok (db.store.tools.countP selected), { db with store := { db.store with
    tools := db.store.tools.map fun row =>
      if selected row then { row with deletedAt := some c.now } else row } })

/-- A transaction handle is the connection it runs on, so it is not in use yet. -/
def begin (c : Choice) : Option (Outcome Uuid) :=
  if (db.findTransaction c.id).isSome then none
  else some (.ok c.id, { db with transactions := db.transactions ++ [(c.id, ⟨c.now, false⟩)] })

def updateRuns (selected : RunRow → Bool) (update : RunRow → RunRow) : Outcome ℕ :=
  (.ok (db.store.updateRuns selected update).1,
    { db with store := (db.store.updateRuns selected update).2 })

def markRunFailed (c : Choice) (tenantId runId : Uuid) (errorReason : String) : Outcome ℕ :=
  db.updateRuns (fun row => row.tenantId == tenantId && row.id == runId) fun row =>
    { row with status := .failed, errorReason := some errorReason, finishedAt := some c.now }

def beginRunExecution (c : Choice) (tenantId runId : Uuid) : Outcome ℕ :=
  db.updateRuns (fun row => row.id == runId && row.tenantId == tenantId && row.status == .pending)
    fun row => { row with status := .running, startedAt := some c.now }

def finalizeRun (c : Choice) (tenantId runId : Uuid) (status : RunStatus)
    (finalAnswer errorReason : Option String) : Outcome ℕ :=
  db.updateRuns (fun row => row.tenantId == tenantId && row.id == runId) fun row =>
    { row with status, finalAnswer, errorReason, finishedAt := some c.now }

/-- `seq` is an `INTEGER`, so the computed number has to fit into 32 bits. -/
def appendEvent (c : Choice) (tenantId runId : Uuid) (eventType : EventType) (payload : Value) :
    Outcome Unit :=
  let seq := db.store.nextSeq tenantId runId
  let row : TraceRow := ⟨c.id, tenantId, runId, seq, eventType, payload, c.now⟩
  if ¬ seq < 2147483648 then (.error .numericValueOutOfRange, db)
  else if !payload.isObject then (.error (.database .runTracesPayloadCheck), db)
  else if db.store.runTraces.any (·.id == c.id) then (.error (.database .runTracesPkey), db)
  else if (db.store.traceRows tenantId runId).any (·.seq == seq) then
    (.error (.database .runTracesSeqKey), db)
  else if !db.store.runs.any (fun run => run.tenantId == tenantId && run.id == runId) then
    (.error (.database .runTracesRunFkey), db)
  else (.ok (), { db with store := { db.store with runTraces := db.store.runTraces ++ [row] } })

/-- A statement that fails for reasons of its own has no effect, except that it aborts the
transaction it runs in. -/
def lose (statement : Statement) : Database :=
  match statement.transaction? with
  | some tx => db.abort tx
  | none => db

/-- Execute one statement. `none` means that it has to wait for another transaction. -/
def execute (c : Choice) (statement : Statement) : Option (Outcome statement.Row) :=
  if c.fail then some (.error .unavailable, db.lose statement)
  else match statement with
    | .createTenant name => some (db.createTenant c name)
    | .createApiKey tenantId keyPrefix keyHash => some (db.createApiKey c tenantId keyPrefix keyHash)
    | .findActiveApiKeyByPrefix keyPrefix => some (.ok (db.store.findApiKey keyPrefix), db)
    | .createTool tenantId name inputSchema mockHandler =>
        some (db.createTool c tenantId name inputSchema mockHandler)
    | .listTools tenantId =>
        some (.ok (orderByCreatedAt c.tie ToolRow.createdAt ToolRow.id (db.store.activeTools tenantId)), db)
    | .deleteTool tenantId toolId => some (db.deleteTool c tenantId toolId)
    | .begin => db.begin c
    | .insertAgent tx tenantId name systemPrompt maxIterations =>
        db.insertAgent c tx tenantId name systemPrompt maxIterations
    | .toolExists tx tenantId toolId => db.toolExists tx tenantId toolId
    | .insertAgentTool tx tenantId agentId toolId => db.insertAgentTool tx tenantId agentId toolId
    | .insertRun tx tenantId agentId inputMessages idempotencyKey =>
        db.insertRun c tx tenantId agentId inputMessages idempotencyKey
    | .findRunByKey tx tenantId agentId idempotencyKey =>
        db.findRunByKey tx tenantId agentId idempotencyKey
    | .commit tx => some (db.commit tx)
    | .getAgent tenantId agentId => some (.ok (db.store.findAgent tenantId agentId), db)
    | .getAgentToolIds tenantId agentId =>
        some (.ok ((orderByCreatedAt c.tie AgentToolRow.createdAt AgentToolRow.toolId
          (db.store.bindings tenantId agentId)).map AgentToolRow.toolId), db)
    | .markRunFailed tenantId runId errorReason => some (db.markRunFailed c tenantId runId errorReason)
    | .beginRunExecution tenantId runId => some (db.beginRunExecution c tenantId runId)
    | .getRun tenantId runId => some (.ok (db.store.findRun tenantId runId), db)
    | .getTrace tenantId runId =>
        some (.ok ((db.store.traceRows tenantId runId).insertionSort (·.seq ≤ ·.seq)), db)
    | .getTool tenantId toolId => some (.ok (db.store.findTool tenantId toolId), db)
    | .listAgentTools tenantId agentId =>
        some (.ok ((orderByCreatedAt c.tie AgentToolRow.createdAt AgentToolRow.toolId
          (db.store.bindings tenantId agentId)).flatMap db.store.joinTool), db)
    | .findUnboundActiveTool tenantId agentId =>
        some (.ok (orderByCreatedAt c.tie ToolRow.createdAt ToolRow.id
          (db.store.unboundTools tenantId agentId)).head?, db)
    | .finalizeRun tenantId runId status finalAnswer errorReason =>
        some (db.finalizeRun c tenantId runId status finalAnswer errorReason)
    | .appendEvent tenantId runId eventType payload =>
        some (db.appendEvent c tenantId runId eventType payload)

end Database

end AgentPlatform
