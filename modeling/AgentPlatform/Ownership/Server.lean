import AgentPlatform.Interleaving.Discipline
import AgentPlatform.Database.Tenancy
import AgentPlatform.Lifecycle.Sound
import AgentPlatform.Model.Http

/-! # Who may write what

A run belongs to the request that created it until its task is spawned, and to that task from then
on. A transaction belongs to the request that opened it. Semaphore permits are held by requests
and tasks of the tenant they were issued for. This is the discipline that every handler and task
of the server follows.
-/

set_option autoImplicit false

namespace AgentPlatform

open Interleaving Relational Database

inductive Token
  | run (runId : Uuid)
  | transaction (tx : Uuid)
deriving DecidableEq

variable (lib : Libraries)

/-- The tenant on whose behalf a request or task is executed. -/
def Task.ActsFor (s : Store) : Task → Uuid → Prop
  | .http request, tenantId => ∃ headers, request.headers? = some headers ∧ s.authenticates lib headers tenantId
  | .executeRun owner _, tenantId => owner = tenantId

variable {lib}

theorem Store.findApiKey_mono {s t : Store} (grown : s.apiKeys <+: t.apiKeys) {keyPrefix : String}
    {row : ApiKeyRow} (found : s.findApiKey keyPrefix = some row) : t.findApiKey keyPrefix = some row := by
  obtain ⟨more, same⟩ := grown
  rw [Store.findApiKey] at found ⊢
  rw [← same, List.find?_append, found]
  rfl

theorem Store.authenticates_mono {s t : Store} (grown : s.apiKeys <+: t.apiKeys) {headers : HeaderMap}
    {tenantId : Uuid} (known : s.authenticates lib headers tenantId) : t.authenticates lib headers tenantId := by
  obtain ⟨apiKey, keyPrefix, row, parsed, found, verified⟩ := known
  exact ⟨apiKey, keyPrefix, row, parsed, Store.findApiKey_mono grown found, verified⟩

theorem Store.authenticates_tenant {db : Database} {headers : HeaderMap} {tenantId : Uuid}
    (accounts : Accounts db.store.tenants db.store.apiKeys) (known : db.store.authenticates lib headers tenantId) :
    ∃ tenant ∈ db.store.tenants, tenant.id = tenantId := by
  obtain ⟨_, _, row, _, found, _, rfl⟩ := known
  exact accounts.tenant row (List.mem_of_find?_eq_some found)

/-- A request acts for one tenant only. -/
theorem Store.authenticates_unique {s : Store} {headers : HeaderMap} {tenantId other : Uuid}
    (left : s.authenticates lib headers tenantId) (right : s.authenticates lib headers other) :
    tenantId = other := by
  obtain ⟨apiKey, keyPrefix, row, parsed, found, _, rfl⟩ := left
  obtain ⟨apiKey', keyPrefix', row', parsed', found', _, rfl⟩ := right
  cases parsed.symm.trans parsed'
  cases found.symm.trans found'
  rfl

theorem Task.ActsFor.mono {s t : Store} (grown : s.apiKeys <+: t.apiKeys) {task : Task} {tenantId : Uuid}
    (acts : task.ActsFor lib s tenantId) : task.ActsFor lib t tenantId := by
  cases task with
  | http request =>
    obtain ⟨headers, sent, known⟩ := acts
    exact ⟨headers, sent, Store.authenticates_mono grown known⟩
  | executeRun owner runId => exact acts

theorem Task.ActsFor.unique {s : Store} {task : Task} {tenantId other : Uuid}
    (left : task.ActsFor lib s tenantId) (right : task.ActsFor lib s other) : tenantId = other := by
  cases task with
  | http request =>
    obtain ⟨headers, sent, known⟩ := left
    obtain ⟨headers', sent', known'⟩ := right
    cases sent.symm.trans sent'
    exact Store.authenticates_unique known known'
  | executeRun owner runId => exact left.symm.trans right

variable (lib)

/-- The database is well formed and every run is somewhere in its course. -/
structure Valid (w : World) : Prop where
  wellFormed : w.db.WellFormed
  runs : ∀ run ∈ w.db.store.runs, ∃ stage, run.Sound lib w.db.store stage

/-- The part of the world that a token stands for exists. -/
def Token.Lives (w : World) : Token → Prop
  | .run runId => ∃ run ∈ w.db.store.runs, run.id = runId
  | .transaction tx => (w.db.findTransaction tx).isSome

def Token.Same (before after : World) : Token → Prop
  | .run runId => SameRun runId before.db after.db
  | .transaction tx => SameTransaction tx before.db after.db

/-- A statement inside a transaction refers to it, and so does its rollback. -/
def Op.Names : Op → Token → Prop
  | .sql statement, token => ∃ tx, statement.transaction? = some tx ∧ token = .transaction tx
  | .rollback tx, token => token = .transaction tx
  | _, _ => False

/-- The permits that a request or task may hold. -/
inductive MayHold (task : Task) (s : Store) : List SemaphoreRef → Prop
  | nothing : MayHold task s []
  | global : MayHold task s [.global]
  | both {tenantId : Uuid} (acts : task.ActsFor lib s tenantId) : MayHold task s [.global, .tenant tenantId]

/-- A task owns its run throughout. -/
def Task.Claims (claim : Set Token) : Task → Prop
  | .http _ => True
  | .executeRun _ runId => .run runId ∈ claim

/-- The run that was asked for like this is in this stage. -/
def InStage (w : World) (request : RunRow) (stage : Stage) : Prop :=
  ∃ run ∈ w.db.store.runs, request.SameRequest run ∧ run.Sound lib w.db.store stage

/-! ## Histories -/

/-- The number of rows that one of the two unguarded updates affected. -/
def affectedRuns : Performed signature → Option ℕ
  | ⟨.sql (.markRunFailed _ _ _), .ok count⟩ => some count
  | ⟨.sql (.finalizeRun _ _ _ _ _), .ok count⟩ => some count
  | _ => none

/-- A statement failed. -/
def failed : Performed signature → Bool
  | ⟨.sql _, .error _⟩ => true
  | _ => false

/-- The row that an `INSERT INTO runs` returned. -/
def insertedRun? : Performed signature → Option RunRow
  | ⟨.sql (.insertRun _ _ _ _ _), .ok row⟩ => some row
  | _ => none

def insertRunFailed : Performed signature → Bool
  | ⟨.sql (.insertRun _ _ _ _ _), .error _⟩ => true
  | _ => false

def committed : Performed signature → Bool
  | ⟨.sql (.commit _), .ok _⟩ => true
  | _ => false

/-- The run that a request has created: inserted and committed. -/
def createdRun? (past : List (Performed signature)) : Option RunRow :=
  if past.any committed then past.findSome? insertedRun? else none

/-- No global permit was available. -/
def exhausted : Performed signature → Bool
  | ⟨.tryAcquireOwned .global, acquired⟩ => !acquired
  | _ => false

/-- One of the two writes failed without which a request that fails leaves its run pending. -/
def leavesPending : Performed signature → Bool
  | ⟨.sql (.appendEvent _ _ .runCreated _), .error _⟩ => true
  | ⟨.sql (.markRunFailed _ _ _), .error _⟩ => true
  | _ => false

/-- `begin_run_execution` returned true. -/
def beganRun : Performed signature → Bool
  | ⟨.sql (.beginRunExecution _ _), .ok count⟩ => count == 1
  | _ => false

def listedTools? : Performed signature → Option (List ToolRow)
  | ⟨.sql (.listAgentTools _ _), .ok rows⟩ => some rows
  | _ => none

def readTool? : Performed signature → Option (Option ToolRow)
  | ⟨.sql (.getTool _ _), .ok row⟩ => some row
  | _ => none

/-! ## What is established on return -/

/-- Some user message of the run contains the sentinel. -/
def RunRow.ForcesInvalidCall (request : RunRow) : Prop :=
  ∃ messages, request.inputMessages = ChatMessage.listToValue messages ∧
    messages.any messageRequestsInvalidToolCall = true

/-- The run leaves the loop through a `?` that does not finalise it: its agent has no tools, or its
first tool is called, accepts the arguments and has no static response. -/
def Abandons (request : RunRow) (past : List (Performed signature)) : Prop :=
  ¬ request.ForcesInvalidCall ∧ (past.findSome? listedTools? = some [] ∨
    ∃ tool rest, past.findSome? listedTools? = some (tool :: rest) ∧
      (∃ row, past.findSome? readTool? = some (some row) ∧ row.deletedAt = none) ∧
      lib.Accepts (toolFromRow lib tool).inputSchema (iterationArguments 0) ∧
      ∀ result, executeMockHandler (toolFromRow lib tool).mockHandler ≠ .ok result)

/-- How a task leaves its run: if it has started the run and no statement failed, the run is either
ended, or abandoned while running. -/
def Concluded (request : RunRow) (stage : Stage) (past : List (Performed signature)) : Prop :=
  past.any beganRun = true → past.any failed = false →
    (Abandons lib request past ∧ stage.status = .running) ∨
    (¬ Abandons lib request past ∧ ∃ rounds decision verdict, stage = .ended rounds decision verdict)

/-- A finished task of a run. -/
def ExecuteReturns (tenantId runId : Uuid) (w : World) (past : List (Performed signature)) : Prop :=
  ∃ (request : RunRow) (stage : Stage), request.id = runId ∧ request.tenantId = tenantId ∧
    InStage lib w request stage ∧ Concluded lib request stage past

/-- The run that a failing `start_run` has created: pending if one of the two decisive writes failed,
and otherwise failed for the reason that the answer names. -/
def LeftBehind (request : RunRow) (fault : AppError) (w : World) (past : List (Performed signature)) : Prop :=
  ∃ stage, InStage lib w request stage ∧
    ((past.any leavesPending = true ∧ stage.status = .pending) ∨
    (past.any leavesPending = false ∧ ∃ reason, stage.status = .failed ∧ stage.errorReason = some reason ∧
      (fault.errorCode ∈ capacityReasons → fault.errorCode = reason)))

/-- A finished `start_run`. -/
structure StartReturns (result : Except AppError Response) (claim : Set Token) (w : World)
    (past : List (Performed signature)) : Prop where
  conflict : past.any insertRunFailed = true → ∃ error, result = .error (.db error)
  created : ∀ request fault, createdRun? past = some request → result = .error fault →
    Token.run request.id ∈ claim ∧ LeftBehind lib request fault w past
  uncreated : createdRun? past = none → past.any leavesPending = false
  capacity : result = .error .schedulerCapacityExceeded → past.any exhausted = true
  refused : past.any exhausted = true → past.any failed = true ∨ result = .error .schedulerCapacityExceeded

def Task.Returns (result : Except AppError Response) (claim : Set Token) (permits : List SemaphoreRef)
    (w : World) (past : List (Performed signature)) : Task → Prop
  | .http (.startRun _ _ _) => permits = [] ∧ StartReturns lib result claim w past
  | .http (.getRun headers runId) => permits = [] ∧ ∀ response, result = .ok (.run response) →
      ∃ tenantId row, w.db.store.authenticates lib headers tenantId ∧
        ⟨.sql (.getRun tenantId runId), .ok (some row)⟩ ∈ past ∧ response = Http.runResponse (runFromRow lib row)
  | .http (.getTrace headers runId) => permits = [] ∧ ∀ response, result = .ok (.trace response) →
      ∃ tenantId rows, w.db.store.authenticates lib headers tenantId ∧
        ⟨.sql (.getTrace tenantId runId), .ok rows⟩ ∈ past ∧
        response = rows.map fun row => ⟨row.seq, row.type, lib.decodeJson row.payload, row.createdAt⟩
  | .http _ => permits = []
  | .executeRun tenantId runId => permits = [] ∧ claim = {.run runId} ∧ ExecuteReturns lib tenantId runId w past

/-- What a task may assume when it starts. -/
def Task.Enters (claim : Set Token) (permits : List SemaphoreRef) (w : World) : Task → Prop
  | .http _ => claim = ∅ ∧ permits = []
  | .executeRun tenantId runId => claim = {.run runId} ∧ permits = [.global, .tenant tenantId] ∧
      ∃ request : RunRow, request.id = runId ∧ request.tenantId = tenantId ∧ InStage lib w request .announced

/-- What every single operation guarantees: rows change only on behalf of their tenant, and an
update of a run by its key finds exactly one row. -/
structure Legal (task : Task) (what : Performed signature) (before after : World) : Prop where
  tenancy : ∀ tenantId, ¬ task.ActsFor lib before.db.store tenantId →
    after.db.store.ofTenant tenantId = before.db.store.ofTenant tenantId
  affected : ∀ count, affectedRuns what = some count → count = 1

theorem Token.Lives.same {before after : World} {token : Token} (lives : token.Lives before)
    (same : token.Same before after) : token.Lives after := by
  cases token with
  | run runId =>
    obtain ⟨run, present, id⟩ := lives
    exact ⟨run, (SameRun.mem same id).mpr present, id⟩
  | transaction tx =>
    rw [Token.Lives, SameTransaction.entry same]
    exact lives

variable {lib}

theorem MayHold.mono {s t : Store} (grown : s.apiKeys <+: t.apiKeys) {task : Task} {permits : List SemaphoreRef}
    (may : MayHold lib task s permits) : MayHold lib task t permits := by
  cases may with
  | nothing => exact .nothing
  | global => exact .global
  | both acts => exact .both (acts.mono grown)

/-- The discipline of the server. -/
@[reducible] def ownership (lib : Libraries) (config : Config) : Discipline (platform lib config) where
  Token := Token
  valid := Valid lib
  evolves before after := before.db.store.Evolves after.db.store
  lives token w := token.Lives w
  same token before after := token.Same before after
  names op token := op.Names token
  holding task claim permits w := task.Claims claim ∧ MayHold lib task w.db.store permits
  legal task _ what before after := Legal lib task what before after
  enters task claim permits w := task.Enters lib claim permits w
  returns task result claim permits w past := task.Returns lib result claim permits w past
  lives_same := Token.Lives.same
  holding_stable := fun ⟨claims, may⟩ _ _ evolves _ => ⟨claims, may.mono evolves.apiKeys⟩

end AgentPlatform
