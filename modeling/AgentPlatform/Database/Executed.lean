import AgentPlatform.Model.Store

/-! # What a statement can do

`Executed` lists, for each statement, its possible answers with the database afterwards, and what
its checks have established. Everything that is proved about all statements goes by cases on it,
so that `Database.execute` is taken apart only here.
-/

set_option autoImplicit false

namespace AgentPlatform

open Relational

/-- The answers of the statements that only read committed rows. -/
def Store.select (s : Store) (c : Choice) : (statement : Statement) → Option statement.Row
  | .findActiveApiKeyByPrefix keyPrefix => some (s.findApiKey keyPrefix)
  | .listTools tenantId =>
      some (orderByCreatedAt c.tie ToolRow.createdAt ToolRow.id (s.activeTools tenantId))
  | .getAgent tenantId agentId => some (s.findAgent tenantId agentId)
  | .getAgentToolIds tenantId agentId =>
      some ((orderByCreatedAt c.tie AgentToolRow.createdAt AgentToolRow.toolId
        (s.bindings tenantId agentId)).map AgentToolRow.toolId)
  | .getRun tenantId runId => some (s.findRun tenantId runId)
  | .getTrace tenantId runId => some ((s.traceRows tenantId runId).insertionSort (·.seq ≤ ·.seq))
  | .getTool tenantId toolId => some (s.findTool tenantId toolId)
  | .listAgentTools tenantId agentId =>
      some ((orderByCreatedAt c.tie AgentToolRow.createdAt AgentToolRow.toolId
        (s.bindings tenantId agentId)).flatMap s.joinTool)
  | .findUnboundActiveTool tenantId agentId =>
      some (orderByCreatedAt c.tie ToolRow.createdAt ToolRow.id (s.unboundTools tenantId agentId)).head?
  | _ => none

namespace Database

/-- A row may be inserted into a table with this unique index. -/
def Free {α κ : Type} (index : α → Option κ) (tx : Uuid) (rows : List α) (pending : List (Uuid × α))
    (row : α) : Prop :=
  (∀ other ∈ visible tx rows pending, index row ≠ none → index other ≠ index row) ∧
    ∀ entry ∈ without tx pending, index row ≠ none → index entry.2 ≠ index row

inductive Executed (c : Choice) (db : Database) :
    (statement : Statement) → Except SqlxError statement.Row → Database → Prop
  | unavailable {statement : Statement} (failing : c.fail = true) :
      Executed c db statement (.error .unavailable) (db.lose statement)
  | select {statement : Statement} {row : statement.Row} (healthy : c.fail = false)
      (answered : db.store.select c statement = some row) : Executed c db statement (.ok row) db
  | noTransaction {statement : Statement} {tx : Uuid} (inside : statement.transaction? = some tx)
      (absent : db.findTransaction tx = none) : Executed c db statement (.error .unavailable) db
  | inFailed {statement : Statement} {tx : Uuid} {transaction : Transaction}
      (inside : statement.transaction? = some tx) (found : db.findTransaction tx = some transaction)
      (aborted : transaction.aborted = true) :
      Executed c db statement (.error .inFailedSqlTransaction) db
  | violated {statement : Statement} {error : SqlxError} (outside : statement.transaction? = none)
      (healthy : c.fail = false) : Executed c db statement (.error error) db
  | violatedWithin {statement : Statement} {tx : Uuid} {transaction : Transaction}
      {constraint : Constraint} (inside : statement.transaction? = some tx)
      (found : db.findTransaction tx = some transaction) (alive : transaction.aborted = false)
      (healthy : c.fail = false) :
      Executed c db statement (.error (.database constraint)) (db.abort tx)
  | createTenant {name : String} :
      Executed c db (.createTenant name) (.ok ⟨c.id, name, c.now⟩)
        { db with store := { db.store with tenants := db.store.tenants ++ [⟨c.id, name, c.now⟩] } }
  | createApiKey {tenantId : Uuid} {keyPrefix keyHash : String}
      (new : ∀ row ∈ db.store.apiKeys, row.keyPrefix ≠ keyPrefix)
      (tenant : ∃ row ∈ db.store.tenants, row.id = tenantId) :
      Executed c db (.createApiKey tenantId keyPrefix keyHash) (.ok ()) { db with store := { db.store with
        apiKeys := db.store.apiKeys ++ [⟨c.id, tenantId, keyPrefix, keyHash, c.now, none⟩] } }
  | createTool {tenantId : Uuid} {name : String} {inputSchema mockHandler : Value}
      (new : ∀ row ∈ db.store.tools, row.id ≠ c.id) :
      Executed c db (.createTool tenantId name inputSchema mockHandler)
        (.ok ⟨c.id, tenantId, name, inputSchema, mockHandler, c.now, none⟩)
        { db with store := { db.store with
          tools := db.store.tools ++ [⟨c.id, tenantId, name, inputSchema, mockHandler, c.now, none⟩] } }
  | deleteTool {tenantId toolId : Uuid} :
      Executed c db (.deleteTool tenantId toolId) (db.deleteTool c tenantId toolId).1
        (db.deleteTool c tenantId toolId).2
  | begin (new : db.findTransaction c.id = none) :
      Executed c db .begin (.ok c.id)
        { db with transactions := db.transactions ++ [(c.id, ⟨c.now, false⟩)] }
  | insertAgent {tx tenantId : Uuid} {name : Option String} {systemPrompt : String}
      {maxIterations : Int} {transaction : Transaction} {row : AgentRow}
      (found : db.findTransaction tx = some transaction) (alive : transaction.aborted = false)
      (same : row = ⟨c.id, tenantId, name, systemPrompt, maxIterations, transaction.startedAt, none⟩)
      (fits : 0 < maxIterations ∧ maxIterations ≤ 50)
      (new : Free (some ∘ AgentRow.id) tx db.store.agents db.pendingAgents row) :
      Executed c db (.insertAgent tx tenantId name systemPrompt maxIterations) (.ok row)
        { db with pendingAgents := db.pendingAgents ++ [(tx, row)] }
  | toolExists {tx tenantId toolId : Uuid} {transaction : Transaction}
      (found : db.findTransaction tx = some transaction) (alive : transaction.aborted = false) :
      Executed c db (.toolExists tx tenantId toolId)
        (.ok (db.store.tools.any fun row =>
          row.tenantId == tenantId && row.id == toolId && row.deletedAt == none)) db
  | insertAgentTool {tx tenantId agentId toolId : Uuid} {transaction : Transaction}
      (found : db.findTransaction tx = some transaction) (alive : transaction.aborted = false)
      (tool : ∃ tool ∈ db.store.tools, tool.tenantId = tenantId ∧ tool.id = toolId) :
      Executed c db (.insertAgentTool tx tenantId agentId toolId) (.ok ()) { db with
        pendingAgentTools := db.pendingAgentTools ++
          [(tx, ⟨tenantId, agentId, toolId, transaction.startedAt⟩)] }
  | insertRun {tx tenantId agentId : Uuid} {inputMessages : Value} {idempotencyKey : Option String}
      {transaction : Transaction} {row : RunRow}
      (found : db.findTransaction tx = some transaction) (alive : transaction.aborted = false)
      (same : row = ⟨c.id, tenantId, agentId, .pending, inputMessages, none, none, idempotencyKey,
        transaction.startedAt, none, none⟩)
      (new : Free (some ∘ RunRow.id) tx db.store.runs db.pendingRuns row)
      (unclaimed : Free RunRow.scope tx db.store.runs db.pendingRuns row)
      (agent : ∃ agent ∈ visible tx db.store.agents db.pendingAgents,
        agent.tenantId = tenantId ∧ agent.id = agentId) :
      Executed c db (.insertRun tx tenantId agentId inputMessages idempotencyKey) (.ok row)
        { db with pendingRuns := db.pendingRuns ++ [(tx, row)] }
  | findRunByKey {tx tenantId agentId : Uuid} {idempotencyKey : Option String} {transaction : Transaction}
      (found : db.findTransaction tx = some transaction) (alive : transaction.aborted = false) :
      Executed c db (.findRunByKey tx tenantId agentId idempotencyKey)
        (.ok ((visible tx db.store.runs db.pendingRuns).find? fun row =>
          row.tenantId == tenantId && row.agentId == agentId && row.idempotencyKey != none &&
            row.idempotencyKey == idempotencyKey)) db
  | commitAborted {tx : Uuid} {transaction : Transaction}
      (found : db.findTransaction tx = some transaction) (aborted : transaction.aborted = true) :
      Executed c db (.commit tx) (.ok ()) (db.rollback tx)
  | commit {tx : Uuid} {transaction : Transaction}
      (found : db.findTransaction tx = some transaction) (alive : transaction.aborted = false) :
      Executed c db (.commit tx) (.ok ()) (db.publish tx)
  | markRunFailed {tenantId runId : Uuid} {errorReason : String} :
      Executed c db (.markRunFailed tenantId runId errorReason)
        (db.markRunFailed c tenantId runId errorReason).1 (db.markRunFailed c tenantId runId errorReason).2
  | beginRunExecution {tenantId runId : Uuid} :
      Executed c db (.beginRunExecution tenantId runId)
        (db.beginRunExecution c tenantId runId).1 (db.beginRunExecution c tenantId runId).2
  | finalizeRun {tenantId runId : Uuid} {status : RunStatus} {finalAnswer errorReason : Option String} :
      Executed c db (.finalizeRun tenantId runId status finalAnswer errorReason)
        (db.finalizeRun c tenantId runId status finalAnswer errorReason).1
        (db.finalizeRun c tenantId runId status finalAnswer errorReason).2
  | appendEvent {tenantId runId : Uuid} {eventType : EventType} {payload : Value}
      (new : ∀ row ∈ db.store.runTraces, row.id ≠ c.id)
      (run : ∃ run ∈ db.store.runs, run.tenantId = tenantId ∧ run.id = runId) :
      Executed c db (.appendEvent tenantId runId eventType payload) (.ok ()) { db with store := { db.store with
        runTraces := db.store.runTraces ++
          [⟨c.id, tenantId, runId, db.store.nextSeq tenantId runId, eventType, payload, c.now⟩] } }

variable {c : Choice} {db db' : Database}

/-- What a statement inside a transaction can do. -/
private theorem within_cases {α : Type} {tx : Uuid}
    {body : Transaction → Option (Except SqlxError (α × Database))} {outcome : Outcome α}
    (ran : db.within tx body = some outcome) :
    (db.findTransaction tx = none ∧ outcome = (.error .unavailable, db)) ∨
    ∃ transaction, db.findTransaction tx = some transaction ∧
      ((transaction.aborted = true ∧ outcome = (.error .inFailedSqlTransaction, db)) ∨
      (transaction.aborted = false ∧
        ((∃ error, body transaction = some (.error error) ∧ outcome = (.error error, db.abort tx)) ∨
        ∃ row next, body transaction = some (.ok (row, next)) ∧ outcome = (.ok row, next)))) := by
  unfold within at ran
  split at ran
  · next absent => exact .inl ⟨absent, (Option.some.inj ran).symm⟩
  · next transaction found =>
    refine .inr ⟨transaction, found, ?_⟩
    split at ran
    · next aborted => exact .inl ⟨aborted, (Option.some.inj ran).symm⟩
    · next alive =>
      refine .inr ⟨by simpa using alive, ?_⟩
      obtain ⟨result, called, same⟩ := Option.map_eq_some_iff.mp ran
      rcases result with error | ⟨row, next⟩
      · exact .inl ⟨error, called, same.symm⟩
      · exact .inr ⟨row, next, called, same.symm⟩

private theorem free_of_checks {α κ : Type} [DecidableEq κ] {index : α → Option κ} {tx : Uuid}
    {rows : List α} {pending : List (Uuid × α)} {row : α} {clash : α → Bool}
    (reads : ∀ other, clash other = true ↔ index row ≠ none ∧ index other = index row)
    (seen : ¬ (visible tx rows pending).any clash = true)
    (foreign : ¬ ((without tx pending).any fun entry => clash entry.2) = true) :
    Free index tx rows pending row := by
  constructor
  · intro other member present same
    exact seen (List.any_eq_true.mpr ⟨other, member, (reads other).mpr ⟨present, same⟩⟩)
  · intro entry member present same
    exact foreign (List.any_eq_true.mpr ⟨entry, member, (reads entry.2).mpr ⟨present, same⟩⟩)

/-- The outcome of a statement of a transaction, when its body only reports constraints. -/
private theorem executed_within {statement : Statement} {tx : Uuid}
    {body : Transaction → Option (Except SqlxError (statement.Row × Database))}
    {answer : Except SqlxError statement.Row} (healthy : c.fail = false)
    (inside : statement.transaction? = some tx) (ran : db.within tx body = some (answer, db'))
    (constraints : ∀ transaction error, body transaction = some (.error error) →
      ∃ constraint, error = .database constraint)
    (success : ∀ transaction row next, db.findTransaction tx = some transaction →
      transaction.aborted = false → body transaction = some (.ok (row, next)) →
      Executed c db statement (.ok row) next) : Executed c db statement answer db' := by
  rcases within_cases ran with
    ⟨absent, same⟩ | ⟨transaction, found,
      ⟨aborted, same⟩ | ⟨alive, ⟨error, called, same⟩ | ⟨row, next, called, same⟩⟩⟩
  · cases same; exact .noTransaction inside absent
  · cases same; exact .inFailed inside found aborted
  · cases same
    obtain ⟨constraint, rfl⟩ := constraints transaction error called
    exact .violatedWithin inside found alive healthy
  · cases same; exact success transaction row _ found alive called

private theorem executed_insertAgent {tx tenantId : Uuid} {name : Option String} {systemPrompt : String}
    {maxIterations : Int} {answer : Except SqlxError AgentRow} (healthy : c.fail = false)
    (ran : db.insertAgent c tx tenantId name systemPrompt maxIterations = some (answer, db')) :
    Executed c db (.insertAgent tx tenantId name systemPrompt maxIterations) answer db' := by
  refine executed_within healthy rfl ran ?_ ?_
  · intro transaction error called
    dsimp only at called
    split_ifs at called <;> cases called <;> exact ⟨_, rfl⟩
  · intro transaction row next found alive called
    dsimp only at called
    split_ifs at called with fits taken waiting clash blocked orphan <;> cases called
    exact .insertAgent found alive rfl fits
      (free_of_checks (fun other => by simp) taken waiting)

private theorem executed_insertAgentTool {tx tenantId agentId toolId : Uuid}
    {answer : Except SqlxError Unit} (healthy : c.fail = false)
    (ran : db.insertAgentTool tx tenantId agentId toolId = some (answer, db')) :
    Executed c db (.insertAgentTool tx tenantId agentId toolId) answer db' := by
  refine executed_within healthy rfl ran ?_ ?_
  · intro transaction error called
    dsimp only at called
    split_ifs at called <;> cases called <;> exact ⟨_, rfl⟩
  · intro transaction row next found alive called
    dsimp only at called
    split_ifs at called with taken waiting agentless orphan <;> cases called
    refine .insertAgentTool found alive ?_
    simpa using orphan

private theorem executed_insertRun {tx tenantId agentId : Uuid} {inputMessages : Value}
    {idempotencyKey : Option String} {answer : Except SqlxError RunRow} (healthy : c.fail = false)
    (ran : db.insertRun c tx tenantId agentId inputMessages idempotencyKey = some (answer, db')) :
    Executed c db (.insertRun tx tenantId agentId inputMessages idempotencyKey) answer db' := by
  refine executed_within healthy rfl ran ?_ ?_
  · intro transaction error called
    dsimp only at called
    split_ifs at called <;> cases called <;> exact ⟨_, rfl⟩
  · intro transaction row next found alive called
    dsimp only at called
    split_ifs at called with unfit taken waiting clash blocked orphan <;> cases called
    refine .insertRun found alive rfl (free_of_checks (fun other => by simp) taken waiting)
      (free_of_checks (fun other => by simp) clash blocked) ?_
    simpa using orphan

/-- Taking a statement apart. -/
theorem executed {statement : Statement} {answer : Except SqlxError statement.Row}
    (ran : db.execute c statement = some (answer, db')) : Executed c db statement answer db' := by
  unfold execute at ran
  split_ifs at ran with failing
  · cases ran; exact .unavailable failing
  · have healthy : c.fail = false := by simpa using failing
    cases statement with
    | createTenant name =>
      simp only [createTenant] at ran
      split_ifs at ran
      · cases ran; exact .violated rfl healthy
      · cases ran; exact .createTenant
    | createApiKey tenantId keyPrefix keyHash =>
      simp only [createApiKey] at ran
      split_ifs at ran with taken clash orphan
      · cases ran; exact .violated rfl healthy
      · cases ran; exact .violated rfl healthy
      · cases ran; exact .violated rfl healthy
      · cases ran
        exact .createApiKey (by simpa using clash) (by simpa using orphan)
    | createTool tenantId name inputSchema mockHandler =>
      simp only [createTool] at ran
      split_ifs at ran with _ _ taken
      all_goals first
        | (cases ran; exact .violated rfl healthy)
        | (cases ran; exact .createTool (by simpa using taken))
    | deleteTool tenantId toolId => cases ran; exact .deleteTool
    | begin =>
      simp only [begin] at ran
      split_ifs at ran with used
      cases ran
      exact .begin (by simpa using used)
    | insertAgent tx tenantId name systemPrompt maxIterations => exact executed_insertAgent healthy ran
    | toolExists tx tenantId toolId =>
      refine executed_within healthy rfl ran (by simp) ?_
      rintro transaction row next found alive ⟨⟩
      exact .toolExists found alive
    | insertAgentTool tx tenantId agentId toolId => exact executed_insertAgentTool healthy ran
    | insertRun tx tenantId agentId inputMessages idempotencyKey => exact executed_insertRun healthy ran
    | findRunByKey tx tenantId agentId idempotencyKey =>
      refine executed_within healthy rfl ran (by simp) ?_
      rintro transaction row next found alive ⟨⟩
      exact .findRunByKey found alive
    | commit tx =>
      simp only [commit, Option.some.injEq] at ran
      split at ran
      · next absent => cases ran; exact .noTransaction rfl absent
      · next transaction found =>
        cases ran
        split_ifs with aborted
        · exact .commitAborted found aborted
        · exact .commit found (by simpa using aborted)
    | markRunFailed tenantId runId errorReason => cases ran; exact .markRunFailed
    | beginRunExecution tenantId runId => cases ran; exact .beginRunExecution
    | finalizeRun tenantId runId status finalAnswer errorReason => cases ran; exact .finalizeRun
    | appendEvent tenantId runId eventType payload =>
      simp only [appendEvent] at ran
      split_ifs at ran with _ _ taken _ orphan
      all_goals first
        | (cases ran; exact .violated rfl healthy)
        | (cases ran; exact .appendEvent (by simpa using taken) (by simpa using orphan))
    | _ => cases ran; exact .select healthy rfl

/-- The row that an `INSERT` of a run answers. -/
theorem Executed.inserted_row {c : Choice} {db db' : Database} {tx tenantId agentId : Uuid} {inputMessages : Value}
    {idempotencyKey : Option String} {row : RunRow}
    (ran : Executed c db (.insertRun tx tenantId agentId inputMessages idempotencyKey) (.ok row) db') :
    ∃ createdAt, row = ⟨c.id, tenantId, agentId, .pending, inputMessages, none, none, idempotencyKey,
      createdAt, none, none⟩ := by
  generalize same : Except.ok row = answer at ran
  cases ran with
  | @insertRun _ _ _ _ _ transaction _ _ _ fields =>
    obtain rfl := Except.ok.inj same
    exact ⟨transaction.startedAt, fields⟩
  | select healthy answered => cases answered
  | _ => cases same

end Database

/-! ## Failing and reading statements -/

section

open Database

variable {c : Choice} {db db' : Database} {statement : Statement}

theorem execute_failing (failing : c.fail = true) :
    db.execute c statement = some (.error .unavailable, db.lose statement) := if_pos failing

/-- A statement that only reads answers from the committed rows. -/
theorem execute_select {row : statement.Row} (healthy : c.fail = false)
    (answered : db.store.select c statement = some row) : db.execute c statement = some (.ok row, db) := by
  have alive : ¬ c.fail = true := by simp [healthy]
  cases statement <;> cases answered <;> simp only [execute, if_neg alive]

theorem transaction?_of_select {s : Store} {row : statement.Row} (answered : s.select c statement = some row) :
    statement.transaction? = none := by
  cases statement <;> first | rfl | cases answered

/-- A query outside transactions answers from the committed rows and changes nothing. -/
theorem answer_of_select {row answer : statement.Row}
    (ran : Executed c db statement (.ok row) db') (selects : db.store.select c statement = some answer) :
    row = answer ∧ db' = db := by
  generalize same : Except.ok row = result at ran
  cases ran with
  | select healthy answered =>
    cases selects.symm.trans answered
    exact ⟨Except.ok.inj same, rfl⟩
  | unavailable failing => cases same
  | noTransaction inside absent => cases same
  | inFailed inside found dead => cases same
  | violated outside healthy => cases same
  | violatedWithin inside found alive healthy => cases same
  | _ => cases selects

end

end AgentPlatform
