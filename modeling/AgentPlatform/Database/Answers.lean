import AgentPlatform.Database.Evolution

/-! # The answers of a healthy database

Which constraint an `INSERT` of `create_agent` violates when nothing but a constraint can make it
fail, and what it leaves behind when it succeeds.
-/

set_option autoImplicit false

namespace AgentPlatform.Database

open Relational

variable {db db' : Database} {c : Choice} {tx tenantId agentId toolId : Uuid} {transaction : Transaction}

/-- A statement inside a transaction that is alive. -/
theorem within_alive {α : Type} {body : Transaction → Option (Except SqlxError (α × Database))}
    (found : db.findTransaction tx = some transaction) (alive : transaction.aborted = false) :
    db.within tx body = (body transaction).map fun
      | .ok (row, next) => (.ok row, next)
      | .error error => (.error error, db.abort tx) := by
  have open_ : ¬ transaction.aborted = true := by simp [alive]
  unfold within
  rw [found]
  exact if_neg open_

theorem begun (ran : db.execute c .begin = some (.ok tx, db')) : db.findTransaction c.id = none ∧ tx = c.id ∧
    db' = { db with transactions := db.transactions ++ [(c.id, ⟨c.now, false⟩)] } := by
  simp only [execute, begin] at ran
  split_ifs at ran with failing inUse
  · cases ran
  · cases ran
    exact ⟨by simpa using inUse, rfl, rfl⟩

theorem not_begun {error : SqlxError} (ran : db.execute c .begin = some (.error error, db')) :
    c.fail = true ∧ error = .unavailable ∧ db' = db := by
  simp only [execute, begin] at ran
  split_ifs at ran with failing inUse
  · cases ran
    exact ⟨failing, rfl, rfl⟩
  · cases ran

/-- Some agent has this active name. -/
def TakesName (agents : List AgentRow) (tenantId : Uuid) (name : Option String) : Prop :=
  ∃ text, name = some text ∧ ∃ agent ∈ agents, agent.activeName = some (tenantId, text)

/-- The outcomes of `INSERT INTO agents`. -/
inductive InsertedAgent (c : Choice) (db : Database) (tx tenantId : Uuid) (name : Option String)
    (systemPrompt : String) (maxIterations : Int) (transaction : Transaction) :
    Except SqlxError AgentRow → Database → Prop
  | range (unfit : ¬ (0 < maxIterations ∧ maxIterations ≤ 50)) :
      InsertedAgent c db tx tenantId name systemPrompt maxIterations transaction
        (.error (.database .agentsMaxIterationsCheck)) (db.abort tx)
  | collides (taken : ∃ other ∈ visible tx db.store.agents db.pendingAgents, other.id = c.id) :
      InsertedAgent c db tx tenantId name systemPrompt maxIterations transaction
        (.error (.database .agentsPkey)) (db.abort tx)
  | duplicate (fits : 0 < maxIterations ∧ maxIterations ≤ 50)
      (taken : TakesName (visible tx db.store.agents db.pendingAgents) tenantId name) :
      InsertedAgent c db tx tenantId name systemPrompt maxIterations transaction
        (.error (.database .uqAgentsTenantNameActive)) (db.abort tx)
  | orphan (absent : ¬ ∃ row ∈ db.store.tenants, row.id = tenantId) :
      InsertedAgent c db tx tenantId name systemPrompt maxIterations transaction
        (.error (.database .agentsTenantIdFkey)) (db.abort tx)
  | inserted (fits : 0 < maxIterations ∧ maxIterations ≤ 50)
      (unnamed : ¬ TakesName (visible tx db.store.agents db.pendingAgents) tenantId name) :
      InsertedAgent c db tx tenantId name systemPrompt maxIterations transaction
        (.ok ⟨c.id, tenantId, name, systemPrompt, maxIterations, transaction.startedAt, none⟩)
        { db with pendingAgents := db.pendingAgents ++
          [(tx, ⟨c.id, tenantId, name, systemPrompt, maxIterations, transaction.startedAt, none⟩)] }

theorem insertedAgent {name : Option String} {systemPrompt : String} {maxIterations : Int}
    {answer : Except SqlxError AgentRow} (healthy : c.fail = false) (found : db.findTransaction tx = some transaction)
    (alive : transaction.aborted = false)
    (ran : db.execute c (.insertAgent tx tenantId name systemPrompt maxIterations) = some (answer, db')) :
    InsertedAgent c db tx tenantId name systemPrompt maxIterations transaction answer db' := by
  have on : ¬ c.fail = true := by simp [healthy]
  simp only [execute, if_neg on, insertAgent, within_alive found alive] at ran
  have clash (other : AgentRow) (row : AgentRow)
      (same : row.tenantId = tenantId ∧ row.name = name ∧ row.deletedAt = none) :
      (row.activeName != none && other.activeName == row.activeName) = true ↔
        ∃ text, name = some text ∧ other.activeName = some (tenantId, text) := by
    obtain ⟨rfl, rfl, active⟩ := same
    cases named : row.name <;> simp [AgentRow.activeName, active, named]
  split_ifs at ran with fits taken waiting named blocked orphan
  · cases ran
    simp only [List.any_eq_true, beq_iff_eq] at taken
    exact .collides taken
  · cases ran
  · cases ran
    obtain ⟨other, seen, same⟩ := List.any_eq_true.mp named
    obtain ⟨text, given, taken⟩ := (clash other _ ⟨rfl, rfl, rfl⟩).mp same
    exact .duplicate fits ⟨text, given, other, seen, taken⟩
  · cases ran
  · cases ran
    exact .orphan (by simpa using orphan)
  · cases ran
    refine .inserted fits ?_
    rintro ⟨text, given, other, seen, taken⟩
    exact named (List.any_eq_true.mpr ⟨other, seen, (clash other _ ⟨rfl, rfl, rfl⟩).mpr ⟨text, given, taken⟩⟩)
  · cases ran
    exact .range fits

/-- The outcomes of `INSERT INTO agent_tools`. -/
inductive InsertedAgentTool (db : Database) (tx tenantId agentId toolId : Uuid) (transaction : Transaction) :
    Except SqlxError Unit → Database → Prop
  | repeated {other : AgentToolRow} (seen : other ∈ visible tx db.store.agentTools db.pendingAgentTools)
      (agent : other.agentId = agentId) (tool : other.toolId = toolId) :
      InsertedAgentTool db tx tenantId agentId toolId transaction (.error (.database .agentToolsPkey)) (db.abort tx)
  | agentless (absent : ¬ ∃ agent ∈ visible tx db.store.agents db.pendingAgents, agent.tenantId = tenantId ∧
      agent.id = agentId) :
      InsertedAgentTool db tx tenantId agentId toolId transaction
      (.error (.database .agentToolsAgentFkey)) (db.abort tx)
  | toolless (absent : ¬ ∃ tool ∈ db.store.tools, tool.tenantId = tenantId ∧ tool.id = toolId) :
      InsertedAgentTool db tx tenantId agentId toolId transaction
      (.error (.database .agentToolsToolFkey)) (db.abort tx)
  | inserted (new : ∀ other ∈ visible tx db.store.agentTools db.pendingAgentTools, other.tenantId = tenantId →
        other.agentId = agentId → other.toolId ≠ toolId) :
      InsertedAgentTool db tx tenantId agentId toolId transaction (.ok ())
        { db with pendingAgentTools :=
          db.pendingAgentTools ++ [(tx, ⟨tenantId, agentId, toolId, transaction.startedAt⟩)] }

theorem insertedAgentTool {answer : Except SqlxError Unit} (healthy : c.fail = false)
    (found : db.findTransaction tx = some transaction) (alive : transaction.aborted = false)
    (ran : db.execute c (.insertAgentTool tx tenantId agentId toolId) = some (answer, db')) :
    InsertedAgentTool db tx tenantId agentId toolId transaction answer db' := by
  have on : ¬ c.fail = true := by simp [healthy]
  simp only [execute, if_neg on, insertAgentTool, within_alive found alive] at ran
  split_ifs at ran with taken waiting agentless toolless
  · cases ran
    simp only [List.any_eq_true, Bool.and_eq_true, beq_iff_eq] at taken
    obtain ⟨other, seen, ⟨_, agent⟩, tool⟩ := taken
    exact .repeated seen agent tool
  · cases ran
  · cases ran
    exact .agentless (by simpa using agentless)
  · cases ran
    exact .toolless (by simpa using toolless)
  · cases ran
    refine .inserted fun other seen tenant agent tool => taken ?_
    simp only [List.any_eq_true, Bool.and_eq_true, beq_iff_eq]
    exact ⟨other, seen, ⟨tenant, agent⟩, tool⟩

/-- The tenant has this tool, and it is not deleted. -/
def ActiveTool (s : Store) (tenantId toolId : Uuid) : Prop :=
  ∃ tool ∈ s.tools, tool.tenantId = tenantId ∧ tool.id = toolId ∧ tool.deletedAt = none

theorem toolExists_answer {answer : Except SqlxError Bool} (healthy : c.fail = false)
    (found : db.findTransaction tx = some transaction) (alive : transaction.aborted = false)
    (ran : db.execute c (.toolExists tx tenantId toolId) = some (answer, db')) :
    db' = db ∧ ∃ present, answer = .ok present ∧ (present = true ↔ ActiveTool db.store tenantId toolId) := by
  have on : ¬ c.fail = true := by simp [healthy]
  simp only [execute, if_neg on, toolExists, within_alive found alive, Option.map_some,
    Option.some.injEq, Prod.mk.injEq] at ran
  obtain ⟨rfl, rfl⟩ := ran
  refine ⟨rfl, _, rfl, ?_⟩
  simp [ActiveTool, and_assoc]

theorem commit_answer {answer : Except SqlxError Unit} (healthy : c.fail = false)
    (found : db.findTransaction tx = some transaction) (alive : transaction.aborted = false)
    (ran : db.execute c (.commit tx) = some (answer, db')) : answer = .ok () ∧ db' = db.publish tx := by
  have on : ¬ c.fail = true := by simp [healthy]
  have open_ : ¬ transaction.aborted = true := by simp [alive]
  simp only [execute, if_neg on, commit, found, if_neg open_, Option.some.injEq, Prod.mk.injEq] at ran
  exact ⟨ran.1.symm, ran.2.symm⟩

/-! ## Single inserts -/

theorem createTenant_answer {name : String} {answer : Except SqlxError TenantRow} (healthy : c.fail = false)
    (new : ¬ ∃ tenant ∈ db.store.tenants, tenant.id = c.id)
    (ran : db.execute c (.createTenant name) = some (answer, db')) : ∃ row, answer = .ok row := by
  have on : ¬ c.fail = true := by simp [healthy]
  simp only [execute, if_neg on, createTenant, Option.some.injEq] at ran
  split_ifs at ran with taken
  · exact absurd (by simpa using taken) new
  · cases ran
    exact ⟨_, rfl⟩

/-- A key is stored unless its tenant does not exist. -/
theorem createApiKey_answer {keyPrefix keyHash : String} {answer : Except SqlxError Unit} (healthy : c.fail = false)
    (new : ¬ ∃ key ∈ db.store.apiKeys, key.id = c.id) (unused : ∀ key ∈ db.store.apiKeys, key.keyPrefix ≠ keyPrefix)
    (ran : db.execute c (.createApiKey tenantId keyPrefix keyHash) = some (answer, db')) :
    ((∃ tenant ∈ db.store.tenants, tenant.id = tenantId) ∧ answer = .ok ()) ∨
      (¬ (∃ tenant ∈ db.store.tenants, tenant.id = tenantId) ∧ answer = .error (.database .apiKeysTenantIdFkey)) := by
  have on : ¬ c.fail = true := by simp [healthy]
  simp only [execute, if_neg on, createApiKey, Option.some.injEq] at ran
  split_ifs at ran with taken clash orphan
  · exact absurd (by simpa using taken) new
  · obtain ⟨key, present, same⟩ := List.any_eq_true.mp clash
    exact absurd (eq_of_beq same) (unused key present)
  · cases ran
    exact .inr ⟨by simpa using orphan, rfl⟩
  · cases ran
    exact .inl ⟨by simpa using orphan, rfl⟩

/-- A tool whose schemas are objects is stored unless its name is taken. -/
theorem createTool_answer {name : String} {inputSchema mockHandler : Value} {answer : Except SqlxError ToolRow}
    (healthy : c.fail = false) (new : ¬ ∃ tool ∈ db.store.tools, tool.id = c.id)
    (schema : inputSchema.isObject = true) (handler : mockHandler.isObject = true)
    (tenant : ∃ tenant ∈ db.store.tenants, tenant.id = tenantId)
    (ran : db.execute c (.createTool tenantId name inputSchema mockHandler) = some (answer, db')) :
    (∃ row, answer = .ok row) ∨ answer = .error (.database .uqToolsTenantNameActive) := by
  have on : ¬ c.fail = true := by simp [healthy]
  simp only [execute, if_neg on, createTool, schema, handler, Option.some.injEq] at ran
  split_ifs at ran with malformed taken clash orphan
  · simp at malformed
  · exact absurd (by simpa using taken) new
  · cases ran
    exact .inr rfl
  · exact absurd tenant (by simpa using orphan)
  · cases ran
    exact .inl ⟨_, rfl⟩

/-- A run with a new scope is inserted. -/
theorem insertRun_answer {inputMessages : Value} {idempotencyKey : Option String} {answer : Except SqlxError RunRow}
    (healthy : c.fail = false) (found : db.findTransaction tx = some transaction)
    (alive : transaction.aborted = false) (messages : inputMessages.isArray = true)
    (none_staged : own tx db.pendingRuns = []) (new : ¬ ∃ run ∈ db.store.runs, run.id = c.id)
    (unclaimed : ∀ key, idempotencyKey = some key → ∀ run ∈ db.store.runs, run.scope ≠ some (tenantId, agentId, key))
    (agent : ∃ agent ∈ db.store.agents, agent.tenantId = tenantId ∧ agent.id = agentId)
    (ran : db.execute c (.insertRun tx tenantId agentId inputMessages idempotencyKey) = some (answer, db')) :
    ∃ row, answer = .ok row ∧ db' = { db with pendingRuns := db.pendingRuns ++ [(tx, row)] } := by
  have on : ¬ c.fail = true := by simp [healthy]
  have seen : visible tx db.store.runs db.pendingRuns = db.store.runs := by rw [visible, none_staged, List.append_nil]
  simp only [execute, if_neg on, insertRun, within_alive found alive, messages, seen] at ran
  split_ifs at ran with malformed taken waiting clash blocked orphan
  · simp at malformed
  · exact absurd (by simpa using taken) new
  · cases ran
  · obtain ⟨run, present, same⟩ := List.any_eq_true.mp clash
    simp only [RunRow.scope, Bool.and_eq_true, bne_iff_ne, beq_iff_eq] at same
    obtain ⟨keyed, same⟩ := same
    cases idempotencyKey with
    | none => simp at keyed
    | some key => exact absurd same (unclaimed key rfl run present)
  · cases ran
  · obtain ⟨row, present, same⟩ := agent
    simp only [Bool.not_eq_eq_eq_not, Bool.not_true, List.any_eq_false, Bool.and_eq_true, beq_iff_eq] at orphan
    exact absurd same (orphan row (List.mem_append_left _ present))
  · cases ran
    exact ⟨_, rfl, rfl⟩

end AgentPlatform.Database

namespace AgentPlatform

/-! ## Sorted answers -/

section Sorting

variable {α : Type} {tie : Uuid → ℕ} {createdAt : α → Timestamp} {id : α → Uuid} {rows : List α}

/-- The order of the query: the earlier row, and the order of `tie` at one time. -/
private theorem earlier_total (time time' : ℕ) (place place' : ℕ) :
    (time < time' ∨ time = time' ∧ place ≤ place') ∨ (time' < time ∨ time' = time ∧ place' ≤ place) := by omega

private theorem earlier_trans {time time' time'' place place' place'' : ℕ}
    (left : time < time' ∨ time = time' ∧ place ≤ place')
    (right : time' < time'' ∨ time' = time'' ∧ place' ≤ place'') : time < time'' ∨
      time = time'' ∧ place ≤ place'' := by omega

theorem orderByCreatedAt_pairwise : (orderByCreatedAt tie createdAt id rows).Pairwise fun a b =>
    createdAt a < createdAt b ∨ createdAt a = createdAt b ∧ tie (id a) ≤ tie (id b) := by
  have total : Std.Total fun a b : α => createdAt a < createdAt b ∨
      createdAt a = createdAt b ∧ tie (id a) ≤ tie (id b) :=
    ⟨fun a b => earlier_total (createdAt a) (createdAt b) (tie (id a)) (tie (id b))⟩
  have trans : IsTrans α fun a b : α => createdAt a < createdAt b ∨
      createdAt a = createdAt b ∧ tie (id a) ≤ tie (id b) :=
    ⟨fun _ _ _ left right => earlier_trans left right⟩
  exact List.pairwise_insertionSort _ rows

end Sorting

end AgentPlatform
