import AgentPlatform.Database.Numbering
import AgentPlatform.Ownership.Requests

/-! # The server follows the discipline

Every handler and every task is safe, so in every state that the server reaches the database is
well formed, every run is somewhere in its course, and every finished handler or task has
established what it returns with.
-/

set_option autoImplicit false

namespace AgentPlatform

open Interleaving Relational Database

variable {lib : Libraries} {config : Config} {w : World} {past : List (Performed signature)}

/-! ## Handlers -/

/-- A request that authenticates continues on behalf of its tenant. -/
theorem safe_authenticated {request : Request} {headers : HeaderMap} {post : Except AppError Response →
      (ownership lib config).Assertion} (sent : request.headers? = some headers)
    (rest : ∀ t past tenant, (Task.http request).ActsFor lib t.db.store tenant.tenantId → Looked [] past →
      (ownership lib config).Safe (.http request) post (request.onBehalf lib tenant) ∅ [] t past)
    (refused : ∀ fault t past, Looked [] past → fault ≠ .schedulerCapacityExceeded →
      post (.error fault) ∅ [] t past) : (ownership lib config).Safe (.http request) post
        (request.handler lib) ∅ [] w [] := by
  rw [Request.handler_eq sent]
  apply safe_authenticate sent (fun t past tenant acts looked => rest t past tenant acts looked)
  exact fun t past fault looked other =>
    safe_done Lasting.trivial.persistent True.intro fun u _ => refused fault u past looked other

theorem safe_plainHandler {request : Request} {tenant : Option Uuid} {program : Act Response}
    (uses : program.Uses (Plain tenant))
    (acts : ∀ tenantId, tenant = some tenantId → (Task.http request).ActsFor lib w.db.store tenantId)
    {post : Except AppError Response → (ownership lib config).Assertion}
    (returns : ∀ result t past, post result ∅ [] t past) :
    (ownership lib config).Safe (.http request) post program ∅ [] w past := by
  apply Discipline.Safe.mono (safe_plain uses acts)
  rintro result claim permits t past ⟨rfl, rfl⟩
  exact returns result t past

theorem safe_tenantHandler {request : Request} {tenantId : Uuid} {program : Act Response}
    (uses : program.Uses (Own tenantId)) (acts : (Task.http request).ActsFor lib w.db.store tenantId)
    {post : Except AppError Response → (ownership lib config).Assertion}
    (returns : ∀ result t past, post result ∅ [] t past) :
    (ownership lib config).Safe (.http request) post program ∅ [] w past :=
  safe_plainHandler (uses.mono fun _ => Own.plain) (fun _ same => Option.some.inj same ▸ acts) returns

theorem safe_createAgentHandler {request : Request} {tenant : TenantContext} {body : CreateAgentRequest}
    (acts : (Task.http request).ActsFor lib w.db.store tenant.tenantId)
    {post : Except AppError Response → (ownership lib config).Assertion}
    (returns : ∀ result t past, post result ∅ [] t past) :
    (ownership lib config).Safe (.http request) post (Http.createAgent tenant body) ∅ [] w past := by
  unfold Http.createAgent
  by_cases blank : (trim body.systemPrompt).isEmpty = true
  · rw [if_pos blank]
    exact safe_done Lasting.trivial.persistent True.intro fun t _ => returns _ t _
  rw [if_neg blank]
  refine Discipline.Safe.bind (safe_createAgent ⟨request, rfl⟩ acts) ?_ ?_
  · rintro agent claim permits w past ⟨rfl, rfl, acts⟩
    exact safe_tenantHandler (uses_getAgentToolIds agent) acts returns
  · rintro fault claim permits w past ⟨rfl, rfl, _⟩
    exact safe_done Lasting.trivial.persistent True.intro fun t _ => returns _ t _

/-- A handler that answers from a single query of its own tenant. -/
theorem safe_reading {task : Task} {statement : Statement} {tenantId : Uuid}
    {rest : Except SqlxError statement.Row → Act Response}
    {post : Except AppError Response → (ownership lib config).Assertion} (free : unowned statement = true)
    (tenant : statement.tenant? = some tenantId) (acts : task.ActsFor lib w.db.store tenantId)
    (answers : ∀ answer, ∃ result, rest answer = .done result ∧ ∀ t, task.ActsFor lib t.db.store tenantId →
      post result ∅ [] t (past ++ [⟨.sql statement, answer⟩])) :
    (ownership lib config).Safe task post (.call (.sql statement) rest) ∅ [] w past := by
  refine safe_unowned free (lasting_actsFor tenantId).persistent acts ?_ ?_
  · intro w knows other named
    cases tenant.symm.trans named
    exact knows
  · intro before after c answer _ knows _ _ _
    obtain ⟨result, done, holds⟩ := answers answer
    rw [done]
    exact safe_done (lasting_actsFor tenantId).persistent knows holds

theorem safe_getRun {headers : HeaderMap} {tenant : TenantContext} {runId : Uuid}
    (acts : (Task.http (.getRun headers runId)).ActsFor lib w.db.store tenant.tenantId) :
    (ownership lib config).Safe (.http (.getRun headers runId))
      ((ownership lib config).returns (.http (.getRun headers runId)))
      (Http.getRun lib tenant runId) ∅ [] w past := by
  apply safe_reading rfl rfl acts
  intro answer
  rcases answer with fault | _ | row
  · exact ⟨_, rfl, fun t _ => ⟨rfl, nofun⟩⟩
  · exact ⟨_, rfl, fun t _ => ⟨rfl, nofun⟩⟩
  · refine ⟨_, rfl, ?_⟩
    rintro t ⟨_, ⟨⟩, known⟩
    refine ⟨rfl, ?_⟩
    rintro _ ⟨⟩
    exact ⟨tenant.tenantId, row, known, by simp, rfl⟩

theorem safe_getTrace {headers : HeaderMap} {tenant : TenantContext} {runId : Uuid}
    (acts : (Task.http (.getTrace headers runId)).ActsFor lib w.db.store tenant.tenantId) :
    (ownership lib config).Safe (.http (.getTrace headers runId))
      ((ownership lib config).returns (.http (.getTrace headers runId)))
      (Http.getTrace lib tenant runId) ∅ [] w past := by
  apply safe_reading rfl rfl acts
  intro answer
  cases answer with
  | error fault => exact ⟨_, rfl, fun t _ => ⟨rfl, nofun⟩⟩
  | ok rows =>
    refine ⟨_, rfl, ?_⟩
    rintro t ⟨_, ⟨⟩, known⟩
    refine ⟨rfl, ?_⟩
    rintro _ ⟨⟩
    exact ⟨tenant.tenantId, rows, known, by simp, by simp [Http.traceEventResponse]⟩

theorem safe_startRunHandler {headers : HeaderMap} {agentId : Uuid} {body : StartRunRequest} :
    (ownership lib config).Safe (.http (.startRun headers agentId body))
      ((ownership lib config).returns (.http (.startRun headers agentId body)))
      ((Request.startRun headers agentId body).handler lib) ∅ [] w [] := by
  apply safe_authenticated rfl (fun t past tenant acts looked => safe_startRun acts (looked.idle .start))
  intro fault t past looked other
  have idle : Idle past := looked.idle .start
  refine ⟨rfl, idle.unmade.returns (fun refused => nomatch idle.unrefused.symm.trans refused) ?_⟩
  rintro ⟨⟩
  exact other rfl

/-- Every handler is safe from the state in which its request arrives. -/
theorem safe_handler (request : Request) :
    (ownership lib config).Safe (.http request) ((ownership lib config).returns (.http request))
      (request.handler lib) ∅ [] w [] := by
  cases request with
  | createTenant body => exact safe_plainHandler (uses_createTenant body) nofun fun _ _ _ => rfl
  | createApiKey tenantId => exact safe_plainHandler (uses_createApiKey tenantId) nofun fun _ _ _ => rfl
  | createTool headers body =>
    refine safe_authenticated rfl (fun t past tenant acts _ => ?_) fun _ _ _ _ _ => rfl
    rw [Request.onBehalf]
    exact safe_tenantHandler (uses_createTool body) acts fun _ _ _ => rfl
  | listTools headers =>
    refine safe_authenticated rfl (fun t past tenant acts _ => ?_) fun _ _ _ _ _ => rfl
    exact safe_tenantHandler uses_listTools acts fun _ _ _ => rfl
  | deleteTool headers toolId =>
    refine safe_authenticated rfl (fun t past tenant acts _ => ?_) fun _ _ _ _ _ => rfl
    exact safe_tenantHandler (uses_deleteTool toolId) acts fun _ _ _ => rfl
  | createAgent headers body =>
    refine safe_authenticated rfl (fun t past tenant acts _ => ?_) fun _ _ _ _ _ => rfl
    exact safe_createAgentHandler acts fun _ _ _ => rfl
  | getAgent headers agentId =>
    refine safe_authenticated rfl (fun t past tenant acts _ => ?_) fun _ _ _ _ _ => rfl
    exact safe_tenantHandler (uses_getAgent agentId) acts fun _ _ _ => rfl
  | startRun headers agentId body => exact safe_startRunHandler
  | getRun headers runId =>
    exact safe_authenticated rfl (fun t past tenant acts _ => safe_getRun acts) fun _ _ _ _ _ => ⟨rfl, nofun⟩
  | getTrace headers runId =>
    exact safe_authenticated rfl (fun t past tenant acts _ => safe_getTrace acts) fun _ _ _ _ _ => ⟨rfl, nofun⟩

/-! ## The whole server -/

theorem verified : (ownership lib config).Verified where
  arrives task s accepted _ := by
    cases task with
    | http request => exact ⟨⟨rfl, rfl⟩, True.intro, .nothing⟩
    | executeRun tenantId runId => cases accepted
  safe task claim permits w enters _ _ _ := by
    cases task with
    | http request =>
      obtain ⟨rfl, rfl⟩ := enters
      exact safe_handler request
    | executeRun tenantId runId => exact safe_executeRunBody enters

theorem Database.WellFormed.empty : WellFormed {} := by
  refine ⟨⟨.nil, ?_, ?_⟩, ⟨.nil, ?_⟩, ⟨.nil, ?_, ?_⟩, ⟨?_, ?_, ?_⟩, ⟨.nil, .nil, ?_, ?_, ?_, ?_⟩, ?_, ⟨?_, ?_, ?_⟩⟩
  all_goals simp [everything]

theorem valid_started : Valid lib (started lib config).shared := ⟨.empty, nofun⟩

variable {events : List (Event (platform lib config))} {pool next : Pool (platform lib config)}
  {event : Event (platform lib config)}

/-- In every state that the server reaches, its threads follow the discipline. -/
theorem holds_of_started (path : Path (started lib config) events pool) :
    ∃ claims, (ownership lib config).Holds events pool claims :=
  Discipline.holds_of_path verified path rfl valid_started

/-- Every step of the server is lawful. -/
theorem lawful_of_started (path : Path (started lib config) events pool) (step : Step pool event next) :
    (ownership lib config).Lawful events pool event next := by
  obtain ⟨claims, holds⟩ := holds_of_started path
  exact (holds.step verified step).2

/-- Every step of the server only lets the rows evolve. -/
theorem evolves_of_started (path : Path (started lib config) events pool) (step : Step pool event next) :
    pool.shared.db.store.Evolves next.shared.db.store := by
  have lawful := lawful_of_started path step
  cases event with
  | arrived task =>
    rw [show next.shared = pool.shared from lawful]
    exact .refl _
  | performed i c what => exact lawful.1

/-- A step that executes a statement. -/
theorem execute_of_step {i : ℕ} {c : Choice} {statement : Statement} {answer : Except SqlxError statement.Row}
    (step : Step pool (.performed i c ⟨.sql statement, answer⟩) next) :
    pool.shared.db.execute c statement = some (answer, next.shared.db) := by
  generalize happened : (⟨.sql statement, answer⟩ : Performed signature) = what at step
  cases step with
  | act present ran =>
    cases happened
    obtain ⟨⟨answer, db⟩, executed, rfl⟩ := Option.map_eq_some_iff.mp ran
    exact executed

theorem Op.exec_store {c : Choice} {op : Op} {permits : List SemaphoreRef}
    {effect : Effect signature (List SemaphoreRef) World Task op} (other : ∀ statement, op ≠ .sql statement)
    (ran : op.exec config Task.executeRun c permits w = some effect) : effect.shared.db.store = w.db.store := by
  cases op with
  | sql statement => exact absurd rfl (other statement)
  | rollback tx | getTenantSemaphore owner | spawn owner runId | generateSalt =>
    cases ran
    rfl
  | tryAcquireOwned semaphore | dropPermit semaphore | sampleAlphanumeric count =>
    simp only [Op.exec] at ran
    split at ran <;> cases ran <;> rfl

/-- Only statements change the committed rows. -/
theorem store_of_step (step : Step pool event next) : next.shared.db.store = pool.shared.db.store ∨
    ∃ i c statement answer, event = .performed i c ⟨.sql statement, answer⟩ ∧
      Executed c pool.shared.db statement answer next.shared.db := by
  cases step with
  | arrive accepted => exact .inl rfl
  | @act i task owned op rest c effect present ran =>
    by_cases sql : ∃ statement, op = .sql statement
    · obtain ⟨statement, rfl⟩ := sql
      obtain ⟨⟨answer, db⟩, executed, rfl⟩ := Option.map_eq_some_iff.mp ran
      exact .inr ⟨i, c, statement, answer, rfl, Database.executed executed⟩
    · exact .inl (Op.exec_store (fun statement same => sql ⟨statement, same⟩) ran)

/-- Only statements and rollbacks change the database. -/
theorem database_of_step (step : Step pool event next) : next.shared.db = pool.shared.db ∨
    (∃ tx, next.shared.db = pool.shared.db.rollback tx) ∨
    ∃ i c statement answer, event = .performed i c ⟨.sql statement, answer⟩ ∧
      pool.shared.db.execute c statement = some (answer, next.shared.db) := by
  cases step with
  | arrive accepted => exact .inl rfl
  | @act i task owned op rest c effect present ran =>
    cases op with
    | sql statement =>
      obtain ⟨⟨answer, db⟩, executes, rfl⟩ := Option.map_eq_some_iff.mp ran
      exact .inr (.inr ⟨i, c, statement, answer, rfl, executes⟩)
    | rollback tx =>
      cases ran
      exact .inr (.inl ⟨tx, rfl⟩)
    | getTenantSemaphore owner | spawn owner runId | generateSalt =>
      cases ran
      exact .inl rfl
    | tryAcquireOwned semaphore | dropPermit semaphore | sampleAlphanumeric count =>
      left
      change Op.exec config Task.executeRun c _ owned pool.shared = some effect at ran
      simp only [Op.exec] at ran
      split at ran <;> cases ran <;> rfl

/-- The events of every run are numbered in every state that the server reaches. -/
theorem numbered_of_started (path : Path (started lib config) events pool) : pool.shared.db.store.Numbered := by
  induction path with
  | nil =>
    intro tenantId runId k row found
    simp [started, World.new, Store.traceRows] at found
  | snoc path step ih =>
    rcases store_of_step step with same | ⟨i, c, statement, answer, _, ran⟩
    · rw [same]
      exact ih
    · exact numbered_executed ran ih

/-- Every state that the server reaches is valid. -/
theorem valid_of_started (path : Path (started lib config) events pool) : Valid lib pool.shared := by
  obtain ⟨claims, holds⟩ := holds_of_started path
  exact holds.valid

end AgentPlatform
