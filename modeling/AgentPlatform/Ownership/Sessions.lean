import AgentPlatform.Interleaving.Protocol
import AgentPlatform.Ownership.Lifetimes
import AgentPlatform.Ownership.Usage

/-! # Transactions from their begin to their end

A request has at most one transaction open. Between the begin and the end it executes statements of
this transaction only, the first one inserts the agent or the run, and it never returns without
ending the transaction. Tasks do not use transactions.
-/

set_option autoImplicit false

namespace AgentPlatform

open Interleaving Relational Database

/-! ## The protocol -/

/-- How far the transaction of a request has come. -/
inductive Session
  | outside
  | opened (tx : Uuid)
  /-- The agent of the transaction, if it has inserted one. -/
  | inserted (tx : Uuid) (agentId : Option Uuid)

namespace Session

def transaction? : Session → Option Uuid
  | outside => none
  | opened tx | inserted tx _ => some tx

def next : Session → Performed signature → Session
  | outside, ⟨.sql .begin, .ok tx⟩ => opened tx
  | opened tx, ⟨.sql (.insertAgent _ _ _ _ _), .ok row⟩ => inserted tx (some row.id)
  | opened tx, ⟨.sql (.insertAgent _ _ _ _ _), .error _⟩ => inserted tx none
  | opened tx, ⟨.sql (.insertRun _ _ _ _ _), _⟩ => inserted tx none
  | inserted _ _, ⟨.sql (.commit _), .ok _⟩ => outside
  | inserted _ _, ⟨.rollback _, _⟩ => outside
  | session, _ => session

def allows : Session → Op → Prop
  | outside, .sql statement => statement.transaction? = none
  | outside, .rollback _ => False
  | outside, _ => True
  | opened tx, .sql (.insertAgent tx' _ _ _ _) => tx' = tx
  | opened tx, .sql (.insertRun tx' _ _ _ _) => tx' = tx
  | inserted tx agentId, .sql (.insertAgentTool tx' _ agent _) => tx' = tx ∧ agentId = some agent
  | inserted tx _, .sql (.toolExists tx' _ _) => tx' = tx
  | inserted tx _, .sql (.findRunByKey tx' _ _ _) => tx' = tx
  | inserted tx _, .sql (.commit tx') => tx' = tx
  | inserted tx _, .rollback tx' => tx' = tx
  | _, _ => False

end Session

@[reducible] def sessions : Protocol signature := ⟨Session, Session.next, Session.allows⟩

/-- The end of a program that leaves no transaction open. -/
def Closed {α : Type} (session : Session) (_ : Except AppError α) : Prop := session = .outside

variable {lib : Libraries} {tenantId agentId tx : Uuid}

/-! ## The handlers -/

/-- Operations that neither open a transaction nor belong to one. -/
def Op.Outside : Op → Prop
  | .sql statement => statement.transaction? = none ∧ statement ≠ .begin
  | .rollback _ => False
  | _ => True

theorem obeys_outside {α : Type} {program : Act α} (uses : program.Uses Op.Outside) :
    program.Obeys sessions Closed Session.outside := by
  refine (Program.Obeys.of_uses uses ?_ ?_).mono fun _ _ same => same
  · intro op outside
    cases op <;> first | exact outside.1 | exact outside
  · intro op answer outside
    cases op with
    | sql statement => cases statement <;> first | rfl | exact absurd rfl outside.2
    | rollback tx => exact outside.elim
    | _ => rfl

/-- The rule for one statement. -/
theorem obeys_query {P : Protocol signature} {state : P.State} {statement : Statement}
    {ends : P.State → Except AppError statement.Row → Prop} (allowed : P.allows state (.sql statement))
    (ok : ∀ row, ends (P.next state ⟨.sql statement, .ok row⟩) (.ok row))
    (error : ∀ error, ends (P.next state ⟨.sql statement, .error error⟩) (.error (.db error))) :
    (query statement).Obeys P ends state := by
  refine ⟨allowed, ?_⟩
  rintro (fault | row)
  · exact error fault
  · exact ok row

/-- The body of a transaction has committed it, or has failed after its first statement. -/
def Settles {α : Type} (tx : Uuid) (session : Session) : Except AppError α → Prop
  | .ok _ => session = .outside
  | .error _ => ∃ agentId, session = .inserted tx agentId

/-- A transaction is rolled back when its body fails. -/
theorem obeys_transaction {α : Type} {body : Uuid → Act α}
    (obeys : ∀ tx, (body tx).Obeys sessions (Settles tx) (Session.opened tx)) : Program.Obeys sessions Closed (do
      let tx ← query .begin
      (body tx).onError (act (.rollback tx))) Session.outside := by
  let opens (session : Session) : Except AppError Uuid → Prop
    | .ok tx => session = .opened tx
    | .error _ => session = .outside
  apply Program.Obeys.bind opens (obeys_query rfl (fun _ => rfl) fun _ => rfl)
  · rintro _ tx rfl
    apply Program.Obeys.onError (Settles tx) (obeys tx)
    · exact fun _ _ closed => closed
    · rintro _ fault ⟨agentId, rfl⟩
      exact ⟨rfl, fun _ => rfl⟩
  · exact fun _ _ closed => closed

/-- The commit at the end of a transaction. -/
theorem obeys_commit {α : Type} {inserted : Option Uuid} (value : α) : Program.Obeys sessions (Settles tx) (do
    query (.commit tx)
    return value) (Session.inserted tx inserted) := by
  apply Program.Obeys.bind (Settles tx) (obeys_query rfl (fun _ => rfl) fun _ => ⟨inserted, rfl⟩)
  · exact fun _ _ closed => closed
  · exact fun _ _ open_ => open_

theorem obeys_bindTools (toolIds : List Uuid) : (Db.bindTools tx tenantId agentId toolIds).Obeys sessions
    (fun session _ => session = .inserted tx (some agentId)) (Session.inserted tx (some agentId)) := by
  let mine (op : Op) : Prop := (∃ toolId, op = .sql (.toolExists tx tenantId toolId)) ∨
    ∃ toolId, op = .sql (.insertAgentTool tx tenantId agentId toolId)
  have uses : (Db.bindTools tx tenantId agentId toolIds).Uses mine := by
    induction toolIds with
    | nil => trivial
    | cons toolId rest ih =>
      refine Program.uses_bind (Program.uses_bind (uses_query (.inl ⟨toolId, rfl⟩)) fun present => ?_) fun _ => ih
      exact Program.uses_ite (uses_query (.inr ⟨toolId, rfl⟩)) True.intro
  apply Program.Obeys.of_uses uses
  · rintro op (⟨toolId, rfl⟩ | ⟨toolId, rfl⟩)
    · rfl
    · exact ⟨rfl, rfl⟩
  · rintro op answer (⟨toolId, rfl⟩ | ⟨toolId, rfl⟩) <;> rfl

theorem obeys_createAgent (name : Option String) (systemPrompt : String) (toolIds : List Uuid) (maxIterations : Int) :
    (Db.createAgent tenantId name systemPrompt toolIds maxIterations).Obeys sessions Closed Session.outside := by
  apply obeys_transaction
  intro tx
  refine ⟨rfl, ?_⟩
  rintro ((constraint | _) | row)
  · cases constraint <;> exact ⟨none, rfl⟩
  all_goals try exact ⟨none, rfl⟩
  change Program.Obeys sessions (Settles tx) (do
    Db.bindTools tx tenantId row.id toolIds
    query (.commit tx)
    return agentFromRow row) (Session.inserted tx (some row.id))
  apply Program.Obeys.bind _ (obeys_bindTools toolIds)
  · rintro _ _ rfl
    exact obeys_commit _
  · rintro _ _ rfl
    exact ⟨_, rfl⟩

theorem obeys_createOrGetRun (inputMessages : Value) (idempotencyKey : Option String) :
    (Db.createOrGetRun lib tenantId agentId inputMessages idempotencyKey).Obeys sessions Closed Session.outside := by
  apply obeys_transaction
  intro tx
  refine ⟨rfl, ?_⟩
  rintro ((constraint | _) | row)
  · by_cases conflict : constraint = .uqRunsIdempotency
    · subst conflict
      refine ⟨rfl, ?_⟩
      rintro (fault | found)
      · exact ⟨none, rfl⟩
      · cases found with
        | none => exact ⟨none, rfl⟩
        | some row => exact obeys_commit _
    · cases constraint <;> first | exact ⟨none, rfl⟩ | exact absurd rfl conflict
  all_goals first | exact ⟨none, rfl⟩ | exact obeys_commit _

theorem Plain.outside {tenant : Option Uuid} {op : Op} (plain : Plain tenant op) : op.Outside := by
  cases op with
  | sql statement =>
    obtain ⟨free, _⟩ := plain
    constructor
    · cases statement <;> first | rfl | cases free
    · rintro rfl
      cases free
  | sampleAlphanumeric count | generateSalt => trivial
  | _ => cases plain

theorem Op.Starts.outside {runId : Uuid} {op : Op} (starts : op.Starts tenantId runId) : op.Outside := by
  cases op with
  | sql statement => cases statement <;> first | exact starts.elim | exact ⟨rfl, by rintro ⟨⟩⟩
  | rollback tx => exact starts.elim
  | _ => trivial

theorem Op.InRun.outside {runId : Uuid} {op : Op} (inside : op.InRun tenantId runId) : op.Outside := by
  cases op with
  | sql statement => cases statement <;> first | exact inside.elim | exact ⟨rfl, by rintro ⟨⟩⟩
  | _ => exact inside.elim

/-- A program that begins outside transactions and goes on there. -/
private theorem obeys_bind_closed {α β : Type} {program : Act α} {rest : α → Act β}
    (first : program.Obeys sessions Closed Session.outside)
    (later : ∀ value, (rest value).Obeys sessions Closed Session.outside) :
    (program >>= rest).Obeys sessions Closed Session.outside := by
  apply Program.Obeys.bind Closed first
  · rintro _ value rfl
    exact later value
  · exact fun _ _ closed => closed

private theorem obeys_startRun {headers : HeaderMap} {tenant : TenantContext} {body : StartRunRequest} :
    (Http.startRun lib headers tenant agentId body).Obeys sessions Closed Session.outside := by
  have found := obeys_outside (α := Option AgentRecord)
    (Program.uses_bind (uses_query ⟨rfl, by rintro ⟨⟩⟩) fun _ =>
      True.intro : (Db.getAgent tenant.tenantId agentId).Uses Op.Outside)
  apply obeys_bind_closed found
  intro agent
  apply obeys_bind_closed (obeys_outside (uses_okOr agent .notFound))
  intro agent
  split
  · rfl
  apply obeys_bind_closed (obeys_createOrGetRun _ _)
  rintro ⟨run, created⟩
  dsimp only
  split
  · apply obeys_bind_closed (obeys_outside (uses_startCreatedRun.mono fun _ => Op.Starts.outside))
    intro _
    rfl
  · rfl

private theorem obeys_onBehalf {request : Request} {headers : HeaderMap} (sent : request.headers? = some headers)
    (tenant : TenantContext) : (request.onBehalf lib tenant).Obeys sessions Closed Session.outside := by
  have own {program : Act Response} (uses : program.Uses (Own tenant.tenantId)) :
      program.Obeys sessions Closed Session.outside := obeys_outside (uses.mono fun _ mine => mine.plain.outside)
  cases request with
  | createTenant body => cases sent
  | createApiKey owner => cases sent
  | createTool _ body => exact own (uses_createTool body)
  | listTools _ => exact own uses_listTools
  | deleteTool _ toolId => exact own (uses_deleteTool toolId)
  | createAgent _ body =>
    change Program.Obeys _ _ (if _ then _ else _) _
    split
    · rfl
    · exact obeys_bind_closed (obeys_createAgent ..) fun agent => own (uses_getAgentToolIds agent)
  | getAgent _ agentId => exact own (uses_getAgent agentId)
  | startRun _ agentId body => exact obeys_startRun
  | getRun _ runId =>
    apply obeys_outside
    refine Program.uses_bind (Program.uses_bind (uses_query ⟨rfl, by rintro ⟨⟩⟩) fun _ => True.intro) fun found => ?_
    exact Program.uses_bind (uses_okOr ..) fun _ => True.intro
  | getTrace _ runId =>
    apply obeys_outside
    exact Program.uses_bind (Program.uses_bind (uses_query ⟨rfl, by rintro ⟨⟩⟩) fun _ =>
      True.intro) fun _ => True.intro

/-- Every request and every task handles its transaction according to the protocol. -/
theorem obeys_task (task : Task) : (task.body lib).Obeys sessions Closed Session.outside := by
  cases task with
  | http request =>
    have authenticated {headers : HeaderMap} (sent : request.headers? = some headers) :
        (request.handler lib).Obeys sessions Closed Session.outside := by
      rw [Request.handler_eq sent]
      apply obeys_bind_closed (obeys_outside (uses_authenticate fun _ => ⟨rfl, by rintro ⟨⟩⟩))
      exact obeys_onBehalf sent
    cases request with
    | createTenant body => exact obeys_outside ((uses_createTenant body).mono fun _ => Plain.outside)
    | createApiKey owner => exact obeys_outside ((uses_createApiKey owner).mono fun _ => Plain.outside)
    | _ => exact authenticated rfl
  | executeRun tenantId runId =>
    apply obeys_outside
    apply uses_task.mono
    rintro op (inside | ⟨semaphore, rfl⟩)
    · exact inside.outside
    · trivial

end AgentPlatform
