import AgentPlatform.Ownership.Handlers

/-! # The operations of an authenticated request

Which operations the program of a handler or task contains at all, whatever answers it gets: after
authentication every one of them names the tenant it acts for, and only the task of a run records
that the run was accepted.
-/

set_option autoImplicit false

namespace AgentPlatform

open Interleaving

variable {lib : Libraries}

/-- The operation names no tenant but this one; transactions and semaphores are named by handles. -/
def Op.OnBehalf (tenantId : Uuid) : Op → Prop
  | .sql .begin | .sql (.commit _) | .rollback _ | .tryAcquireOwned _ | .dropPermit _ => True
  | .sql statement => statement.tenant? = some tenantId
  | .getTenantSemaphore owner | .spawn owner _ => owner = tenantId
  | .sampleAlphanumeric _ | .generateSalt => False

/-- `begin_run_execution` returns true. -/
abbrev canStart (tenantId runId : Uuid) : Performed signature :=
  ⟨.sql (.beginRunExecution tenantId runId), .ok 1⟩

/-- The first statement of the body of `execute_run`. -/
def Op.EntersBody (op : Op) (runId : Uuid) : Prop :=
  ∃ tenantId, op = .sql (.appendEvent tenantId runId .schedulerDecision Payload.accepted)

/-- An operation on behalf of a tenant that does not begin the body of `execute_run`. -/
def Op.Ordinary (tenantId : Uuid) (op : Op) : Prop := op.OnBehalf tenantId ∧ ∀ runId, ¬ op.EntersBody runId

/-- Operations that no request executes: only the task of a run starts and settles the run, and appends its
events from the acceptance on, and a run is refused for lack of capacity only. -/
def Op.Unhandled : Op → Prop
  | .sql (.beginRunExecution ..) | .sql (.finalizeRun ..) => True
  | .sql (.appendEvent _ _ eventType payload) => eventType = .schedulerDecision ∧ payload = Payload.accepted ∨
      eventType ∈ [.runStarted, .llmCall, .toolExec, .retry]
  | .sql (.markRunFailed _ _ reason) => reason ∉ capacityReasons
  | _ => False

/-- An operation of a request on behalf of its tenant. -/
def Op.Handled (tenantId : Uuid) (op : Op) : Prop := op.OnBehalf tenantId ∧ ¬ op.Unhandled

/-- A statement of the task of a run: it writes this run only, and reads for its tenant. -/
def Op.InRun (tenantId runId : Uuid) : Op → Prop
  | .sql (.getRun owner run) | .sql (.beginRunExecution owner run) | .sql (.finalizeRun owner run ..) =>
      owner = tenantId ∧ run = runId
  | .sql (.appendEvent owner run _ payload) => owner = tenantId ∧ run = runId ∧ payload.isObject = true
  | .sql (.getAgent owner _) | .sql (.listAgentTools owner _) | .sql (.findUnboundActiveTool owner _) |
    .sql (.getTool owner _) | .sql (.getAgentToolIds owner _) => owner = tenantId
  | _ => False

/-- A statement of the task of a run that does not begin the body of `execute_run`. -/
def Op.Inside (tenantId runId : Uuid) (op : Op) : Prop := op.InRun tenantId runId ∧ ∀ runId, ¬ op.EntersBody runId

theorem Op.InRun.onBehalf {tenantId runId : Uuid} {op : Op} (inside : op.InRun tenantId runId) :
    op.OnBehalf tenantId := by
  cases op with
  | sql statement =>
    cases statement <;> first
      | exact congrArg some inside
      | exact congrArg some inside.1
      | exact inside.elim
  | _ => cases inside

theorem Op.Inside.ordinary {tenantId runId : Uuid} {op : Op} (inside : op.Inside tenantId runId) :
    op.Ordinary tenantId := ⟨inside.1.onBehalf, inside.2⟩

theorem Op.EntersBody.unhandled {runId : Uuid} {op : Op} (enters : op.EntersBody runId) : op.Unhandled := by
  obtain ⟨tenantId, rfl⟩ := enters
  exact .inl ⟨rfl, rfl⟩

theorem Plain.not_unhandled {tenant : Option Uuid} {op : Op} (plain : Plain tenant op) : ¬ op.Unhandled := by
  cases op with
  | sql statement => cases statement <;> first | exact id | cases plain.1
  | _ => exact id

variable {tenantId agentId runId : Uuid}

theorem handled_sql {statement : Statement} (named : statement.tenant? = some tenantId)
    (other : ¬ (Op.sql statement).Unhandled) : (Op.sql statement).Handled tenantId := by
  refine ⟨?_, other⟩
  cases statement <;> first | exact named | exact True.intro

theorem uses_handled {statement : Statement} (named : statement.tenant? = some tenantId)
    (other : ¬ (Op.sql statement).Unhandled) : (query statement).Uses (Op.Handled tenantId) :=
  uses_query (handled_sql named other)

theorem Own.handled {op : Op} (mine : Own tenantId op) : op.Handled tenantId := by
  cases op with
  | sql statement =>
    obtain ⟨free, named⟩ := mine
    apply handled_sql named
    cases statement <;> first | exact id | cases free
  | _ => cases mine

theorem uses_okOr {α : Type} {allowed : Op → Prop} (value : Option α) (error : AppError) :
    (okOr value error).Uses allowed := by
  cases value <;> trivial

theorem uses_okOrError {α : Type} {allowed : Op → Prop} (value : Except AppError α) :
    (okOrError value).Uses allowed := by
  cases value <;> trivial

/-- The operations that announce a run and hand it to the scheduler. -/
def Op.Starts (tenantId runId : Uuid) : Op → Prop
  | .sql (.appendEvent owner run eventType payload) => owner = tenantId ∧ run = runId ∧
      ¬ (Op.sql (.appendEvent owner run eventType payload)).Unhandled
  | .sql (.markRunFailed owner run reason) => owner = tenantId ∧ run = runId ∧ reason ∈ capacityReasons
  | .spawn owner run => owner = tenantId ∧ run = runId
  | .getTenantSemaphore owner => owner = tenantId
  | .tryAcquireOwned _ | .dropPermit _ => True
  | _ => False

theorem Op.Starts.handled {op : Op} (starts : op.Starts tenantId runId) : op.Handled tenantId := by
  cases op with
  | sql statement =>
    cases statement with
    | appendEvent owner run eventType payload => exact ⟨congrArg some starts.1, starts.2.2⟩
    | markRunFailed owner run reason => exact ⟨congrArg some starts.1, not_not_intro starts.2.2⟩
    | _ => exact starts.elim
  | spawn owner run => exact ⟨starts.1, id⟩
  | getTenantSemaphore owner => exact ⟨starts, id⟩
  | tryAcquireOwned semaphore => exact ⟨True.intro, id⟩
  | dropPermit semaphore => exact ⟨True.intro, id⟩
  | _ => exact starts.elim

theorem uses_failRunBeforeStart {reason : String} (capacity : reason ∈ capacityReasons) :
    (failRunBeforeStart tenantId runId reason (Payload.rejected reason)).Uses (Op.Starts tenantId runId) := by
  refine Program.uses_bind (Program.uses_bind (uses_query ⟨rfl, rfl, capacity⟩) fun _ => True.intro) fun _ => ?_
  refine Program.uses_bind (uses_query ⟨rfl, rfl, ?_⟩) fun _ => uses_query ⟨rfl, rfl, by simp [Op.Unhandled]⟩
  simp [Op.Unhandled, Payload.rejected, Payload.accepted]

theorem uses_scheduleRun : (scheduleRun tenantId runId).Uses (Op.Starts tenantId runId) := by
  have refuse {reason : String} (capacity : reason ∈ capacityReasons) (error : AppError) : (do
      failRunBeforeStart tenantId runId reason (Payload.rejected reason)
      throw error : Act Unit).Uses (Op.Starts tenantId runId) :=
    Program.uses_bind (uses_failRunBeforeStart capacity) fun _ => True.intro
  refine Program.uses_bind (Program.uses_perform True.intro) fun acquired => ?_
  refine Program.uses_ite (Program.uses_handle ?_ ?_) (refuse (by decide) _)
  · refine Program.uses_bind (Program.uses_perform rfl) fun semaphore => ?_
    refine Program.uses_bind (Program.uses_perform True.intro) fun acquired => ?_
    exact Program.uses_ite (Program.uses_perform ⟨rfl, rfl⟩) (refuse (by decide) _)
  · rintro (fault | done)
    · exact ⟨True.intro, fun _ => True.intro⟩
    · trivial

theorem uses_startCreatedRun : (Http.startCreatedRun tenantId runId).Uses (Op.Starts tenantId runId) :=
  Program.uses_bind (uses_query ⟨rfl, rfl, by simp [Op.Unhandled]⟩) fun _ => uses_scheduleRun

/-! ## Requests -/

/-- The operations that create an agent of this tenant. -/
def Op.Builds (tenantId : Uuid) : Op → Prop
  | .sql .begin | .sql (.commit _) | .rollback _ => True
  | .sql (.insertAgent _ owner ..) | .sql (.toolExists _ owner _) | .sql (.insertAgentTool _ owner ..) =>
      owner = tenantId
  | _ => False

theorem Op.Builds.handled {op : Op} (builds : op.Builds tenantId) : op.Handled tenantId := by
  cases op with
  | sql statement =>
    cases statement <;> first
      | exact ⟨True.intro, id⟩
      | exact ⟨congrArg some builds, id⟩
      | exact builds.elim
  | rollback tx => exact ⟨True.intro, id⟩
  | _ => exact builds.elim

/-- The body of a transaction, and its rollback when it fails. -/
theorem uses_transaction {α : Type} {tx : Uuid} {program : Act α} {allowed : Op → Prop}
    (rolls : allowed (.rollback tx)) (uses : program.Uses allowed) :
    (program.onError (act (.rollback tx))).Uses allowed := by
  apply Program.uses_handle uses
  rintro (fault | value)
  · exact ⟨rolls, fun _ => True.intro⟩
  · trivial

/-- The operations that create a run of this agent, or look for the one with the same key. -/
def Op.Inserts (tenantId agentId : Uuid) (inputMessages : Value) (idempotencyKey : Option String) : Op → Prop
  | .sql .begin | .sql (.commit _) | .rollback _ => True
  | .sql (.insertRun _ owner agent messages key) =>
      owner = tenantId ∧ agent = agentId ∧ messages = inputMessages ∧ key = idempotencyKey
  | .sql (.findRunByKey _ owner agent key) => owner = tenantId ∧ agent = agentId ∧ key = idempotencyKey
  | _ => False

theorem Op.Inserts.handled {inputMessages : Value} {idempotencyKey : Option String} {op : Op}
    (inserts : op.Inserts tenantId agentId inputMessages idempotencyKey) : op.Handled tenantId := by
  cases op with
  | sql statement =>
    cases statement <;> first
      | exact ⟨True.intro, id⟩
      | exact ⟨congrArg some inserts.1, id⟩
      | exact inserts.elim
  | rollback tx => exact ⟨True.intro, id⟩
  | _ => exact inserts.elim

/-- After `begin` every operation of `create_or_get_run` names its transaction. -/
theorem createOrGetRun_eq_begin (inputMessages : Value) (idempotencyKey : Option String) :
    ∃ body : Uuid → Act (RunRecord × Bool),
      Db.createOrGetRun lib tenantId agentId inputMessages idempotencyKey = query .begin >>= body ∧
      ∀ tx, (body tx).Uses fun op : Op => op.Inserts tenantId agentId inputMessages idempotencyKey ∧
        op.Names (.transaction tx) := by
  refine ⟨_, rfl, fun tx => uses_transaction ⟨True.intro, rfl⟩ ?_⟩
  refine ⟨⟨⟨rfl, rfl, rfl, rfl⟩, tx, rfl, rfl⟩, fun answer => ?_⟩
  have finish (row : RunRow) (created : Bool) : (do
      query (.commit tx)
      return (runFromRow lib row, created) : Act (RunRecord × Bool)).Uses
        fun op : Op => op.Inserts tenantId agentId inputMessages idempotencyKey ∧ op.Names (.transaction tx) :=
    Program.uses_bind (uses_query ⟨True.intro, tx, rfl, rfl⟩) fun _ => True.intro
  rcases answer with (constraint | _) | row
  · by_cases conflict : constraint = .uqRunsIdempotency
    · subst conflict
      apply Program.uses_bind (uses_query ⟨⟨rfl, rfl, rfl⟩, tx, rfl, rfl⟩)
      intro found
      exact Program.uses_bind (uses_okOr ..) fun row => finish row false
    · cases constraint <;> trivial
  all_goals first | trivial | exact finish row true

theorem uses_createOrGetRun (inputMessages : Value) (idempotencyKey : Option String) :
    (Db.createOrGetRun lib tenantId agentId inputMessages idempotencyKey).Uses
      (Op.Inserts tenantId agentId inputMessages idempotencyKey) := by
  obtain ⟨body, same, uses⟩ := @createOrGetRun_eq_begin lib tenantId agentId inputMessages idempotencyKey
  rw [same]
  exact Program.uses_bind (uses_query True.intro) fun tx => (uses tx).mono fun _ names => names.1

theorem uses_bindTools (tx : Uuid) (toolIds : List Uuid) :
    (Db.bindTools tx tenantId agentId toolIds).Uses fun op : Op => op.Builds tenantId ∧
      op.Names (.transaction tx) := by
  induction toolIds with
  | nil => trivial
  | cons toolId rest ih =>
    refine Program.uses_bind (Program.uses_bind (uses_query ⟨rfl, tx, rfl, rfl⟩) fun present => ?_) fun _ => ih
    exact Program.uses_ite (uses_query ⟨rfl, tx, rfl, rfl⟩) True.intro

/-- After `begin` every operation of `create_agent` names its transaction. -/
theorem dbCreateAgent_eq_begin (name : Option String) (systemPrompt : String) (toolIds : List Uuid)
    (maxIterations : Int) : ∃ body : Uuid → Act AgentRecord,
      Db.createAgent tenantId name systemPrompt toolIds maxIterations = query .begin >>= body ∧
      ∀ tx, (body tx).Uses fun op : Op => op.Builds tenantId ∧ op.Names (.transaction tx) := by
  refine ⟨_, rfl, fun tx => uses_transaction ⟨True.intro, rfl⟩ ?_⟩
  refine ⟨⟨rfl, tx, rfl, rfl⟩, fun answer => ?_⟩
  rcases answer with (constraint | _) | row
  · cases constraint <;> trivial
  all_goals try trivial
  refine Program.uses_bind True.intro fun agent => Program.uses_bind (uses_bindTools tx toolIds) fun _ => ?_
  exact Program.uses_bind (uses_query ⟨True.intro, tx, rfl, rfl⟩) fun _ => True.intro

theorem uses_dbCreateAgent (name : Option String) (systemPrompt : String) (toolIds : List Uuid)
    (maxIterations : Int) :
    (Db.createAgent tenantId name systemPrompt toolIds maxIterations).Uses (Op.Builds tenantId) := by
  obtain ⟨body, same, uses⟩ := @dbCreateAgent_eq_begin tenantId name systemPrompt toolIds maxIterations
  rw [same]
  exact Program.uses_bind (uses_query True.intro) fun tx => (uses tx).mono fun _ names => names.1

/-- What an authenticated request does, it does on behalf of its tenant. -/
theorem uses_onBehalf {request : Request} {headers : HeaderMap} (sent : request.headers? = some headers)
    (tenant : TenantContext) : (request.onBehalf lib tenant).Uses (Op.Handled tenant.tenantId) := by
  have own {program : Act Response} (uses : program.Uses (Own tenant.tenantId)) :
      program.Uses (Op.Handled tenant.tenantId) := uses.mono fun _ => Own.handled
  cases request with
  | createTenant body => cases sent
  | createApiKey owner => cases sent
  | createTool _ body => exact own (uses_createTool body)
  | listTools _ => exact own uses_listTools
  | deleteTool _ toolId => exact own (uses_deleteTool toolId)
  | createAgent _ body =>
    refine Program.uses_ite True.intro (Program.uses_bind
      ((uses_dbCreateAgent ..).mono fun _ => Op.Builds.handled) fun agent => ?_)
    exact own (uses_getAgentToolIds agent)
  | getAgent _ agentId => exact own (uses_getAgent agentId)
  | startRun _ agentId body =>
    refine Program.uses_bind (Program.uses_bind (uses_handled rfl id) fun _ => True.intro) fun found => ?_
    refine Program.uses_bind (uses_okOr ..) fun agent => Program.uses_ite True.intro ?_
    refine Program.uses_bind ((uses_createOrGetRun ..).mono fun _ => Op.Inserts.handled) fun outcome =>
      Program.uses_ite ?_ True.intro
    exact Program.uses_bind (uses_startCreatedRun.mono fun _ => Op.Starts.handled) fun _ => True.intro
  | getRun _ runId =>
    refine Program.uses_bind (Program.uses_bind (uses_handled rfl id) fun _ => True.intro) fun found => ?_
    exact Program.uses_bind (uses_okOr ..) fun _ => True.intro
  | getTrace _ runId =>
    refine Program.uses_bind (Program.uses_bind (uses_handled rfl id) fun _ => True.intro) fun found => ?_
    exact True.intro

theorem uses_authenticate {allowed : Op → Prop} {headers : HeaderMap}
    (looks : ∀ keyPrefix, allowed (.sql (.findActiveApiKeyByPrefix keyPrefix))) :
    (authenticate lib headers).Uses allowed := by
  apply Program.uses_bind (uses_okOr ..)
  intro key
  refine Program.uses_bind (Program.uses_bind (uses_query (looks _)) fun _ => True.intro) fun found => ?_
  exact Program.uses_bind (uses_okOr ..) fun row => Program.uses_bind (uses_okOrError _) fun _ => True.intro

/-- No handler does what a task does. -/
theorem uses_handler (request : Request) : (request.handler lib).Uses fun op : Op => ¬ op.Unhandled := by
  have onBehalf {headers : HeaderMap} (sent : request.headers? = some headers) : (do
      let tenant ← authenticate lib headers
      request.onBehalf lib tenant : Act Response).Uses fun op : Op => ¬ op.Unhandled :=
    Program.uses_bind (uses_authenticate fun keyPrefix => id) fun tenant =>
      (uses_onBehalf sent tenant).mono fun _ handled => handled.2
  cases request with
  | createTenant body => exact (uses_createTenant body).mono fun _ => Plain.not_unhandled
  | createApiKey owner => exact (uses_createApiKey owner).mono fun _ => Plain.not_unhandled
  | _ => exact onBehalf rfl

/-! ## Tasks -/

theorem uses_inside {statement : Statement} (inside : (Op.sql statement).InRun tenantId runId)
    (other : ∀ owner runId, statement ≠ .appendEvent owner runId .schedulerDecision Payload.accepted) :
    (query statement).Uses (Op.Inside tenantId runId) := by
  refine uses_query ⟨inside, ?_⟩
  rintro run ⟨owner, same⟩
  exact other owner run (Op.sql.inj same)

/-- What the agent loop of this run does is allowed. -/
structure AllowsLoop (allowed : Op → Prop) (tenantId runId agentId : Uuid) : Prop where
  find : allowed (.sql (.findUnboundActiveTool tenantId agentId))
  tool : ∀ toolId, allowed (.sql (.getTool tenantId toolId))
  bound : allowed (.sql (.getAgentToolIds tenantId agentId))
  settle : ∀ status finalAnswer errorReason, allowed
    (.sql (.finalizeRun tenantId runId status finalAnswer errorReason))
  append : ∀ eventType payload, payload.isObject = true → eventType ≠ .schedulerDecision →
    allowed (.sql (.appendEvent tenantId runId eventType payload))

section Loop

variable {allowed : Op → Prop}

theorem uses_failRun (allows : AllowsLoop allowed tenantId runId agentId) (reason : String) :
    (failRun tenantId runId reason).Uses allowed := by
  refine Program.uses_bind (Program.uses_bind (uses_query (allows.settle ..)) fun _ => True.intro) fun _ => ?_
  exact uses_query (allows.append _ _ rfl (by decide))

theorem uses_mockLlmDecision (allows : AllowsLoop allowed tenantId runId agentId) (boundTools : List ToolRecord)
    (toolResultCount : ℕ) (force : Bool) :
    (mockLlmDecision lib tenantId agentId boundTools toolResultCount force).Uses allowed := by
  refine Program.uses_ite ?_ (Program.uses_ite ?_ True.intro)
  · refine Program.uses_bind (Program.uses_bind (uses_query allows.find) fun _ => True.intro) fun found => ?_
    cases found <;> trivial
  · exact Program.uses_bind (uses_okOr ..) fun _ => True.intro

theorem uses_authorizeToolCall (allows : AllowsLoop allowed tenantId runId agentId) (toolId : Uuid) :
    (authorizeToolCall lib tenantId agentId toolId).Uses allowed := by
  refine Program.uses_bind (Program.uses_bind (uses_query (allows.tool toolId)) fun _ => True.intro) fun found => ?_
  refine Program.uses_bind (uses_okOr ..) fun tool => Program.uses_ite True.intro ?_
  exact Program.uses_bind (uses_query allows.bound) fun bound => Program.uses_ite True.intro True.intro

theorem uses_agentLoop (agent : AgentRecord) (allows : AllowsLoop allowed tenantId runId agent.id)
    (boundTools : List ToolRecord) (force : Bool) (remaining : ℕ) (iteration : Int) (toolResultCount : ℕ)
    (consumed : Bool) : (agentLoop lib tenantId runId agent boundTools force remaining iteration toolResultCount
      consumed).Uses allowed := by
  have fails (error : AppError) : (do
      failRun tenantId runId (normalizeErrorReason error)
      throw error : Act Unit).Uses allowed :=
    Program.uses_bind (uses_failRun allows _) fun _ => True.intro
  induction remaining generalizing iteration toolResultCount consumed with
  | zero => exact uses_failRun allows _
  | succ remaining ih =>
    apply Program.uses_bind (uses_mockLlmDecision allows ..)
    intro decision
    apply Program.uses_bind (uses_query (allows.append _ _ rfl (by decide)))
    intro _
    cases decision.kind with
    | finalAnswer answer =>
      refine Program.uses_bind (Program.uses_bind (uses_query (allows.settle ..)) fun _ => True.intro) fun _ => ?_
      exact uses_query (allows.append _ _ rfl (by decide))
    | toolCall toolId arguments =>
      refine Program.uses_bind (Program.uses_handle (uses_authorizeToolCall allows toolId) fun _ => True.intro) ?_
      rintro (fault | tool)
      · exact fails fault
      dsimp only
      split
      · next fault refused => exact fails fault
      · apply Program.uses_bind (uses_okOrError _)
        intro result
        exact Program.uses_bind (uses_query (allows.append _ _ rfl (by decide))) fun _ => ih ..

end Loop

theorem allowsLoop_inside : AllowsLoop (Op.Inside tenantId runId) tenantId runId agentId where
  find := ⟨rfl, by rintro _ ⟨_, ⟨⟩⟩⟩
  tool _ := ⟨rfl, by rintro _ ⟨_, ⟨⟩⟩⟩
  bound := ⟨rfl, by rintro _ ⟨_, ⟨⟩⟩⟩
  settle _ _ _ := ⟨⟨rfl, rfl⟩, by rintro _ ⟨_, ⟨⟩⟩⟩
  append eventType payload object other := by
    refine ⟨⟨rfl, rfl, object⟩, ?_⟩
    rintro run ⟨owner, same⟩
    cases same
    exact other rfl

/-- `execute_run` goes past its first statement only if that has changed one row. -/
theorem executeRun_eq_call :
    ∃ next, executeRun lib tenantId runId = .call (.sql (.beginRunExecution tenantId runId)) next ∧
    next (.ok 1) = executeStartedRun lib tenantId runId ∧
    ∀ answer, answer ≠ .ok 1 → ∃ result, next answer = .done result := by
  refine ⟨_, rfl, rfl, ?_⟩
  rintro (fault | rowsAffected) other
  · exact ⟨_, rfl⟩
  · refine ⟨.ok (), if_neg fun begun => other ?_⟩
    rw [of_decide_eq_true begun]

/-- The body of `execute_run` begins with the acceptance of the run, and does not record it again. -/
theorem executeStartedRun_eq_call : ∃ next, executeStartedRun lib tenantId runId =
    .call (.sql (.appendEvent tenantId runId .schedulerDecision Payload.accepted)) next ∧
      ∀ answer, (next answer).Uses (Op.Inside tenantId runId) := by
  refine ⟨_, rfl, ?_⟩
  rintro (fault | done)
  · trivial
  refine Program.uses_bind (uses_inside ⟨rfl, rfl, rfl⟩ nofun) fun _ => ?_
  refine Program.uses_bind (Program.uses_bind (uses_inside ⟨rfl, rfl⟩ nofun) fun _ => True.intro) fun found => ?_
  apply Program.uses_bind (uses_okOr ..)
  intro run
  refine Program.uses_bind (Program.uses_bind (uses_inside rfl nofun) fun _ => True.intro) fun found => ?_
  apply Program.uses_bind (uses_okOr ..)
  intro agent
  refine Program.uses_bind (Program.uses_bind (uses_inside rfl nofun) fun _ => True.intro) fun boundTools => ?_
  exact Program.uses_bind (uses_okOr ..) fun messages => uses_agentLoop _ allowsLoop_inside ..

/-- Every statement of `execute_run` is one of its run. -/
theorem uses_executeRun : (executeRun lib tenantId runId).Uses (Op.InRun tenantId runId) := by
  obtain ⟨begun, begins, body, idle⟩ : ∃ next, executeRun lib tenantId runId = _ ∧ _ := executeRun_eq_call
  obtain ⟨entered, starts, later⟩ : ∃ next, executeStartedRun lib tenantId runId = _ ∧ _ := executeStartedRun_eq_call
  rw [begins]
  refine ⟨⟨rfl, rfl⟩, fun answer => ?_⟩
  by_cases begins' : answer = .ok 1
  · subst begins'
    rw [body, starts]
    exact ⟨⟨rfl, rfl, rfl⟩, fun accepted => (later accepted).mono fun _ inside => inside.1⟩
  · obtain ⟨result, stops⟩ := idle answer begins'
    rw [stops]
    trivial

/-- The work of a task, and the drop of its permits. -/
def closing (tenantId : Uuid) (work : Act Unit) : Act Response := do
  work.ensuring do
    act (.dropPermit (.tenant tenantId))
    act (.dropPermit .global)
  return .executed

theorem uses_closing {work : Act Unit} {allowed : Op → Prop} (drop : ∀ semaphore, allowed (.dropPermit semaphore))
    (uses : work.Uses allowed) : (closing tenantId work).Uses allowed := by
  refine Program.uses_bind (Program.uses_handle uses fun result => Program.uses_handle ?_ fun _ => True.intro)
    fun _ => True.intro
  exact Program.uses_bind (Program.uses_perform (drop _)) fun _ => Program.uses_perform (drop _)

/-- What the task of a run does: the statements of its run, and the drop of its permits. -/
theorem uses_task : (Task.body lib (.executeRun tenantId runId)).Uses fun op : Op =>
    op.InRun tenantId runId ∨ ∃ semaphore, op = .dropPermit semaphore :=
  uses_closing (fun semaphore => .inr ⟨semaphore, rfl⟩) (uses_executeRun.mono fun _ => .inl)

/-- A task enters its body once, right after it has begun its run. -/
theorem follows_executeRun {owner : Uuid} {past : List (Performed signature)} {op : Op}
    {next : op.Answer → Act Response} (enters : op.EntersBody runId)
    (follows : (Task.body lib (.executeRun tenantId owner)).Follows past (.call op next)) :
    owner = runId ∧ past = [canStart tenantId owner] := by
  have only {program : Act Response} {past : List (Performed signature)}
      (uses : program.Uses (Op.Ordinary tenantId)) : ¬ program.Follows past (.call op next) :=
    fun follows => (follows.uses uses).2.1.2 runId enters
  have drop (semaphore : SemaphoreRef) : (Op.dropPermit semaphore).Ordinary tenantId :=
    ⟨True.intro, by simp [Op.EntersBody]⟩
  obtain ⟨begun, begins, body, idle⟩ : ∃ next, executeRun lib tenantId owner = _ ∧ _ := executeRun_eq_call
  obtain ⟨entered, starts, later⟩ : ∃ next, executeStartedRun lib tenantId owner = _ ∧ _ := executeStartedRun_eq_call
  change (closing tenantId (executeRun lib tenantId owner)).Follows _ _ at follows
  rw [begins] at follows
  rcases follows.cases_call with ⟨_, same⟩ | ⟨answer, done, rfl, tail⟩
  · cases same
    obtain ⟨_, same⟩ := enters
    cases same
  by_cases begins' : answer = .ok 1
  · subst begins'
    change (closing tenantId (begun (.ok 1))).Follows _ _ at tail
    rw [body, starts] at tail
    rcases tail.cases_call with ⟨rfl, same⟩ | ⟨accepted, done, rfl, final⟩
    · cases same
      obtain ⟨_, same⟩ := enters
      cases same
      exact ⟨rfl, rfl⟩
    · change (closing tenantId (entered accepted)).Follows _ _ at final
      exact absurd final (only (uses_closing drop ((later accepted).mono fun _ => Op.Inside.ordinary)))
  · obtain ⟨result, stops⟩ := idle answer begins'
    change (closing tenantId (begun answer)).Follows _ _ at tail
    rw [stops] at tail
    exact absurd tail (only (uses_closing drop True.intro))

end AgentPlatform
