import AgentPlatform.Interleaving.Work
import AgentPlatform.Ownership.Usage

/-! # The effort of requests and tasks

How many operations a handler or a task executes at most, whatever it is answered. The agent loop
calls a tool at most twice and then answers, so the bound of a task does not depend on the number of
iterations that its agent admits.
-/

set_option autoImplicit false

namespace AgentPlatform

open Interleaving Program

/-- An operation counts once, and `spawn` counts for the task it starts as well. -/
def Op.cost : Op → ℕ
  | .spawn _ _ => 21
  | _ => 1

/-- The most that a request or task can cost. -/
def Task.load : Task → ℕ
  | .http (.createTenant _) => 1
  | .http (.createApiKey _) => 4
  | .http (.createTool _ _) | .http (.listTools _) | .http (.deleteTool _ _) | .http (.getRun _ _)
  | .http (.getTrace _ _) => 2
  | .http (.getAgent _ _) => 3
  | .http (.createAgent _ body) => 6 + 2 * body.toolIds.length
  | .http (.startRun _ _ _) => 33
  | .executeRun _ _ => 20

variable {lib : Libraries} {config : Config} {tenantId agentId runId : Uuid}

theorem within_query {statement : Statement} : (query statement).Within Op.cost 1 := by
  refine ⟨Nat.le_refl 1, ?_⟩
  rintro (fault | row) <;> trivial

theorem within_okOr {α : Type} (value : Option α) (error : AppError) : (okOr value error).Within Op.cost 0 := by
  cases value <;> trivial

theorem within_okOrError {α : Type} (value : Except AppError α) : (okOrError value).Within Op.cost 0 := by
  cases value <;> trivial

/-- A query whose answer is only converted. -/
theorem within_reading {α : Type} {statement : Statement} (convert : statement.Row → α) :
    (do return convert (← query statement) : Act α).Within Op.cost 1 := by
  refine ⟨Nat.le_refl 1, ?_⟩
  rintro (fault | row) <;> trivial

theorem within_attempt {α : Type} {program : Act α} {n : ℕ} (within : program.Within Op.cost n) :
    program.attempt.Within Op.cost n :=
  within.handle fun _ => @within_done _ _ _ _ 0 _

/-! ## Requests -/

theorem within_authenticate {headers : HeaderMap} : (authenticate lib headers).Within Op.cost 1 := by
  apply Within.bind (m := 0) (n := 1) (within_okOr ..)
  rintro ⟨apiKey, keyPrefix⟩
  apply Within.bind (m := 1) (n := 0) (within_reading _)
  intro found
  apply Within.bind (m := 0) (n := 0) (within_okOr ..)
  intro row
  apply Within.bind (m := 0) (n := 0) (within_okOrError _)
  intro _
  trivial

theorem within_bindTools (tx : Uuid) (toolIds : List Uuid) :
    (Db.bindTools tx tenantId agentId toolIds).Within Op.cost (2 * toolIds.length) := by
  induction toolIds with
  | nil => trivial
  | cons toolId rest ih =>
    have one : (Db.bindTool tx tenantId agentId toolId).Within Op.cost 2 := by
      apply Within.bind (m := 1) (n := 1) within_query
      intro present
      exact within_ite within_query trivial
    have all := Within.bind one fun _ => ih
    rw [List.length_cons, Nat.mul_succ, Nat.add_comm]
    exact all

theorem within_createAgent (name : Option String) (systemPrompt : String) (toolIds : List Uuid)
    (maxIterations : Int) : (Db.createAgent tenantId name systemPrompt toolIds maxIterations).Within Op.cost
    (4 + 2 * toolIds.length) := by
  apply Within.mono (m := 1 + (1 + (2 * toolIds.length + (1 + 0)) + 1)) _ (by omega)
  apply within_query.bind
  intro tx
  refine Within.onError ⟨Nat.le_add_right 1 _, ?_⟩ (within_perform (Nat.le_refl 1))
  rintro ((constraint | _) | row)
  · cases constraint <;> trivial
  all_goals try trivial
  have body : (do
      Db.bindTools tx tenantId row.id toolIds
      query (.commit tx)
      return agentFromRow row : Act AgentRecord).Within Op.cost (2 * toolIds.length + (1 + 0)) :=
    (within_bindTools tx toolIds).bind fun _ => within_query.bind fun _ => within_pure
  exact body.mono (by simp only [Op.cost]; omega)

theorem within_createOrGetRun (inputMessages : Value) (idempotencyKey : Option String) :
    (Db.createOrGetRun lib tenantId agentId inputMessages idempotencyKey).Within Op.cost 5 := by
  apply Within.bind (m := 1) (n := 4) within_query
  intro tx
  apply Within.onError (m := 3) (n := 1) _ (within_perform (Nat.le_refl 1))
  have finish (row : RunRow) (created : Bool) : (do
      query (.commit tx)
      return (runFromRow lib row, created) : Act (RunRecord × Bool)).Within Op.cost 1 := within_reading _
  refine ⟨(by decide : 1 ≤ 3), ?_⟩
  rintro ((constraint | _) | row)
  · by_cases conflict : constraint = .uqRunsIdempotency
    · subst conflict
      apply Within.bind (m := 1) (n := 1) within_query
      intro found
      exact Within.bind (m := 0) (n := 1) (within_okOr ..) fun row => finish row false
    · cases constraint <;> trivial
  all_goals first | trivial | exact (finish row true).mono (by decide : 1 ≤ 2)

theorem within_failRunBeforeStart (reason : String) (payload : Value) :
    (failRunBeforeStart tenantId runId reason payload).Within Op.cost 3 := by
  apply Within.bind (m := 1) (n := 2) (within_reading _)
  intro _
  exact Within.bind (m := 1) (n := 1) within_query fun _ => within_query

theorem within_scheduleRun : (scheduleRun tenantId runId).Within Op.cost 25 := by
  have refuse (reason : String) (payload : Value) (error : AppError) : (do
      failRunBeforeStart tenantId runId reason payload
      throw error : Act Unit).Within Op.cost 3 :=
    Within.bind (m := 3) (n := 0) (within_failRunBeforeStart ..) fun _ => within_throw
  apply Within.bind (m := 1) (n := 24) (within_perform (Nat.le_refl 1))
  intro (acquired : Bool)
  refine within_ite ?_ ((refuse ..).mono (by decide))
  apply Within.onError (m := 23) (n := 1) _ (within_perform (Nat.le_refl 1))
  apply Within.bind (m := 1) (n := 22) (within_perform (Nat.le_refl 1))
  intro semaphore
  apply Within.bind (m := 1) (n := 21) (within_perform (Nat.le_refl 1))
  intro (acquired : Bool)
  exact within_ite (within_perform (Nat.le_refl 21)) ((refuse ..).mono (by decide))

theorem within_startRun {headers : HeaderMap} {tenant : TenantContext} {body : StartRunRequest} :
    (Http.startRun lib headers tenant agentId body).Within Op.cost 32 := by
  apply Within.bind (m := 1) (n := 31) (within_reading _)
  intro found
  apply Within.bind (m := 0) (n := 31) (within_okOr ..)
  intro agent
  apply within_ite within_throw
  apply Within.bind (m := 5) (n := 26) (within_createOrGetRun ..)
  rintro ⟨run, created⟩
  refine within_ite ?_ within_pure
  apply Within.bind (m := 26) (n := 0) _ fun _ => within_pure
  exact Within.bind (m := 1) (n := 25) within_query fun _ => within_scheduleRun

theorem within_onBehalf {request : Request} {headers : HeaderMap} (sent : request.headers? = some headers)
    (tenant : TenantContext) : (request.onBehalf lib tenant).Within Op.cost ((Task.http request).load - 1) := by
  cases request with
  | createTenant body => cases sent
  | createApiKey owner => cases sent
  | createTool _ body =>
    apply within_ite within_throw
    apply within_ite within_throw
    apply Within.bind (m := 1) (n := 0) _ fun _ => within_pure
    refine ⟨Nat.le_refl 1, ?_⟩
    rintro ((constraint | _) | row)
    · cases constraint <;> trivial
    all_goals trivial
  | listTools _ => exact Within.bind (m := 1) (n := 0) (within_reading _) fun _ => within_pure
  | deleteTool _ toolId =>
    apply Within.bind (m := 1) (n := 0) _ fun _ => within_pure
    exact Within.bind (m := 1) (n := 0) within_query fun _ => within_ite within_throw within_pure
  | createAgent _ body =>
    apply within_ite within_throw
    apply Within.mono (m := 4 + 2 * body.toolIds.length + (1 + 0)) _ (by simp only [Task.load]; omega)
    apply (within_createAgent ..).bind
    intro agent
    exact within_query.bind fun _ => within_pure
  | getAgent _ agentId =>
    apply Within.bind (m := 1) (n := 1) (within_reading _)
    intro found
    apply Within.bind (m := 0) (n := 1) (within_okOr ..)
    intro agent
    exact Within.bind (m := 1) (n := 0) within_query fun _ => within_pure
  | startRun _ agentId body => exact within_startRun
  | getRun _ runId =>
    apply Within.bind (m := 1) (n := 0) (within_reading _)
    intro found
    exact Within.bind (m := 0) (n := 0) (within_okOr ..) fun _ => within_pure
  | getTrace _ runId => exact Within.bind (m := 1) (n := 0) (within_reading _) fun _ => within_pure

/-! ## Tasks -/

theorem within_failRun (reason : String) : (failRun tenantId runId reason).Within Op.cost 2 :=
  Within.bind (m := 1) (n := 1) (within_reading _) fun _ => within_query

theorem within_authorizeToolCall (toolId : Uuid) :
    (authorizeToolCall lib tenantId agentId toolId).Within Op.cost 2 := by
  apply Within.bind (m := 1) (n := 1) (within_reading _)
  intro found
  apply Within.bind (m := 0) (n := 1) (within_okOr ..)
  intro tool
  apply within_ite within_throw
  exact Within.bind (m := 1) (n := 0) within_query fun _ => within_ite within_pure within_throw

/-- What the loop may still do after so many tool results. -/
def loopEffort (toolResultCount : ℕ) (trigger : Bool) : ℕ := 4 * (2 - toolResultCount) + 3 + if trigger then 1 else 0

theorem within_agentLoop (agent : AgentRecord) (boundTools : List ToolRecord) (force : Bool) (remaining : ℕ)
    (iteration : Int) (toolResultCount : ℕ) (consumed : Bool)
    (early : (force && !consumed) = true → toolResultCount = 0) :
    (agentLoop lib tenantId runId agent boundTools force remaining iteration toolResultCount consumed).Within Op.cost
      (loopEffort toolResultCount (force && !consumed)) := by
  have fails (error : AppError) : (do
      failRun tenantId runId (normalizeErrorReason error)
      throw error : Act Unit).Within Op.cost 2 :=
    Within.bind (m := 2) (n := 0) (within_failRun _) fun _ => within_throw
  induction remaining generalizing iteration toolResultCount consumed with
  | zero => exact (within_failRun _).mono (by simp only [loopEffort]; omega)
  | succ remaining ih =>
    -- the trigger is consumed by the first tool call
    have later : (force && !(consumed || force)) = false := by cases force <;> simp
    have onward : 3 ≤ loopEffort (toolResultCount + 1) false := by simp only [loopEffort]; omega
    have executed (tool : ToolRecord) (arguments : Value) (iteration : Int) : (do
        let result ← okOrError (executeMockHandler tool.mockHandler)
        Trace.appendEvent tenantId runId .toolExec (Payload.toolExec tool arguments result)
        agentLoop lib tenantId runId agent boundTools force remaining (iteration + 1) (toolResultCount + 1)
          (consumed || force) : Act Unit).Within Op.cost (0 + (1 + loopEffort (toolResultCount + 1) false)) := by
      apply (within_okOrError _).bind
      intro result
      apply within_query.bind
      intro _
      have rest := ih (iteration + 1) (toolResultCount + 1) (consumed || force) (by rw [later]; rintro ⟨⟩)
      rwa [later] at rest
    have called (iteration : Int) (toolId : Uuid) (payload : Value) (rest : Except AppError ToolRecord → Act Unit)
        (refused : ∀ error, (rest (.error error)).Within Op.cost 2)
        (granted : ∀ tool, (rest (.ok tool)).Within Op.cost (0 + (1 + loopEffort (toolResultCount + 1) false))) : (do
          Trace.appendEvent tenantId runId .llmCall (Payload.llmCall iteration payload)
          let answer ← (authorizeToolCall lib tenantId agent.id toolId).attempt
          rest answer : Act Unit).Within Op.cost (4 + loopEffort (toolResultCount + 1) false) := by
      apply Within.mono (m := 1 + (2 + (1 + loopEffort (toolResultCount + 1) false))) _ (by omega)
      apply within_query.bind
      intro _
      apply Within.bind (m := 2) (within_attempt (within_authorizeToolCall toolId))
      rintro (fault | tool)
      · exact (refused fault).mono (by omega)
      · exact (granted tool).mono (by omega)
    rw [agentLoop]
    cases trigger : force && !consumed with
    | true =>
      rw [early trigger] at called executed onward ⊢
      refine ⟨Nat.le_add_left 1 _, ?_⟩
      rintro (fault | (_ | tool))
      · trivial
      all_goals
        refine called _ _ _ _ (fun fault => fails fault) fun tool => ?_
        dsimp only
        split
        · next fault refused => exact (fails fault).mono (by omega)
        · exact executed ..
    | false =>
      by_cases more : toolResultCount < 2
      · rw [mockLlmDecision, if_neg (by simp), if_pos more]
        cases boundTools with
        | nil => trivial
        | cons tool rest =>
          refine (called _ _ _ _ (fun fault => fails fault) fun tool => ?_).mono (by simp only [loopEffort]; omega)
          dsimp only
          split
          · next fault refused => exact (fails fault).mono (by omega)
          · exact executed ..
      · rw [mockLlmDecision, if_neg (by simp), if_neg more]
        apply Within.mono (m := 1 + (1 + 1)) _ (by simp only [loopEffort]; omega)
        apply Within.bind (m := 1) (n := 1 + 1) within_query
        intro _
        exact Within.bind (m := 1) (n := 1) (within_reading _) fun _ => within_query

theorem within_executeRun : (executeRun lib tenantId runId).Within Op.cost 18 := by
  apply Within.bind (m := 1) (n := 17) (within_reading _)
  intro (canStart : Bool)
  refine within_ite ?_ within_pure
  apply Within.bind (m := 1) (n := 16) within_query
  intro _
  apply Within.bind (m := 1) (n := 15) within_query
  intro _
  apply Within.bind (m := 1) (n := 14) (within_reading _)
  intro found
  apply Within.bind (m := 0) (n := 14) (within_okOr ..)
  intro run
  apply Within.bind (m := 1) (n := 13) (within_reading _)
  intro found
  apply Within.bind (m := 0) (n := 13) (within_okOr ..)
  intro agent
  apply Within.bind (m := 1) (n := 12) (within_reading _)
  intro boundTools
  apply Within.bind (m := 0) (n := 12) (within_okOr ..)
  intro messages
  refine (within_agentLoop _ _ _ _ _ _ _ fun _ => rfl).mono ?_
  simp only [loopEffort]
  split <;> decide

/-- Every request and every task stays within its load. -/
theorem within_load (task : Task) : (task.body lib).Within Op.cost task.load := by
  cases task with
  | http request =>
    have authenticated {headers : HeaderMap} (sent : request.headers? = some headers) :
        (request.handler lib).Within Op.cost (Task.http request).load := by
      rw [Request.handler_eq sent]
      apply Within.mono (m := 1 + ((Task.http request).load - 1)) (within_authenticate.bind (within_onBehalf sent))
      cases request <;> first | (cases sent; done) | (simp only [Task.load]; omega)
    cases request with
    | createTenant body =>
      apply within_ite within_throw
      exact Within.bind (m := 1) (n := 0) (within_reading _) fun _ => within_pure
    | createApiKey owner =>
      apply Within.bind (m := 3) (n := 1)
      · apply Within.bind (m := 1) (n := 2) (within_perform (Nat.le_refl 1))
        intro keyPrefix
        apply Within.bind (m := 1) (n := 1) (within_perform (Nat.le_refl 1))
        intro secret
        apply Within.bind (m := 1) (n := 0) (within_perform (Nat.le_refl 1))
        intro salt
        exact Within.bind (m := 0) (n := 0) (within_okOr ..) fun _ => within_pure
      · intro key
        exact Within.bind (m := 1) (n := 0) within_query fun _ => within_pure
    | _ => exact authenticated rfl
  | executeRun tenantId runId =>
    apply Within.bind (m := 20) (n := 0) _ fun _ => within_pure
    apply Within.ensuring (m := 18) (n := 2) within_executeRun
    exact Within.bind (m := 1) (n := 1) (within_perform (Nat.le_refl 1)) fun _ => within_perform (Nat.le_refl 1)

/-- Starting a task is paid for. -/
theorem pays_cost : Pays (M := platform lib config) Op.cost Task.load := by
  intro c op permits w effect ran
  have once (none : effect.spawned = none) :
      1 + (effect.spawned.elim 0 fun started => Task.load started.1) ≤ op.cost := by
    rw [none]
    cases op <;> first | exact Nat.le_refl 1 | exact (by decide : 1 ≤ 21)
  cases op with
  | sql statement =>
    obtain ⟨outcome, _, rfl⟩ := Option.map_eq_some_iff.mp ran
    exact once rfl
  | spawn tenantId runId =>
    cases ran
    exact Nat.le_refl 21
  | _ =>
    apply once
    change Op.exec config Task.executeRun c _ permits w = some effect at ran
    simp only [Op.exec] at ran
    first
      | (cases ran; rfl)
      | (split at ran <;> cases ran <;> rfl)

end AgentPlatform
