import AgentPlatform.Interleaving.Comparison
import AgentPlatform.Ownership.Surrounded
import AgentPlatform.Ownership.Usage

/-! # The answers that a task gets

As long as no tool is created or deleted, the tools, the agent of the run and its bindings stay as they are, and
nobody else writes the run. So the rows at the start of a task determine every answer that it gets, up to the
columns of its own run, which it does not look at.
-/

set_option autoImplicit false

namespace AgentPlatform

open Interleaving Database

variable {lib : Libraries} {s : Store} {request : RunRow} {tie : Op → Uuid → ℕ} {agent : AgentRow}
  {tenantId runId : Uuid}

/-- The operations of the task of a run of this agent. -/
def Op.Serves (tenantId runId agentId : Uuid) : Op → Prop
  | .sql (.getRun owner run) | .sql (.beginRunExecution owner run) | .sql (.finalizeRun owner run ..) |
    .sql (.appendEvent owner run ..) => owner = tenantId ∧ run = runId
  | .sql (.getAgent owner agent) | .sql (.listAgentTools owner agent) | .sql (.findUnboundActiveTool owner agent) |
    .sql (.getAgentToolIds owner agent) => owner = tenantId ∧ agent = agentId
  | .sql (.getTool owner _) => owner = tenantId
  | .dropPermit _ => True
  | _ => False

/-- The answer of a statement that does not fail, from these rows and with this order of tied rows. -/
def Expected (s : Store) (request : RunRow) (tie : Op → Uuid → ℕ) : (op : Op) → op.Answer → Prop
  | .sql (.getRun ..), answer => ∃ row, answer = .ok (some row) ∧ request.SameRequest row
  | .sql (.beginRunExecution ..), answer | .sql (.finalizeRun ..), answer => answer = .ok 1
  | .sql (.appendEvent ..), answer => answer = .ok ()
  | .sql statement, answer => ∃ (c : Choice) (row : _), c.tie = tie (.sql statement) ∧
      s.select c statement = some row ∧ answer = .ok row
  | _, _ => True

/-! ## What the answers depend on -/

theorem Store.select_tie {s : Store} {c c' : Choice} (same : c.tie = c'.tie) (statement : Statement) :
    s.select c statement = s.select c' statement := by
  cases statement <;> simp only [Store.select, same]

/-- The rows that a task only reads are the same. -/
structure Store.SameReads (tenantId : Uuid) (agent : AgentRow) (s t : Store) : Prop where
  tools : t.tools = s.tools
  bindings : t.bindings tenantId agent.id = s.bindings tenantId agent.id
  agent : t.findAgent tenantId agent.id = s.findAgent tenantId agent.id

theorem Store.SameReads.symm {s t : Store} (same : s.SameReads tenantId agent t) : t.SameReads tenantId agent s :=
  ⟨same.tools.symm, same.bindings.symm, same.agent.symm⟩

theorem Store.SameReads.trans {s t u : Store} (first : s.SameReads tenantId agent t)
    (second : t.SameReads tenantId agent u) : s.SameReads tenantId agent u :=
  ⟨second.tools.trans first.tools, second.bindings.trans first.bindings, second.agent.trans first.agent⟩

theorem Store.SameReads.select {s t : Store} (same : s.SameReads tenantId agent t) {statement : Statement}
    {c : Choice} (serves : (Op.sql statement).Serves tenantId runId agent.id)
    (other : ∀ tenantId runId, statement ≠ .getRun tenantId runId) : t.select c statement = s.select c statement := by
  have joined : t.joinTool = s.joinTool := by
    funext binding
    rw [joinTool, joinTool, same.tools]
  cases statement with
  | getAgent owner agentId =>
    obtain ⟨rfl, rfl⟩ := serves
    exact congrArg some same.agent
  | getAgentToolIds owner agentId =>
    obtain ⟨rfl, rfl⟩ := serves
    simp only [Store.select, same.bindings]
  | listAgentTools owner agentId =>
    obtain ⟨rfl, rfl⟩ := serves
    simp only [Store.select, same.bindings, joined]
  | findUnboundActiveTool owner agentId =>
    obtain ⟨rfl, rfl⟩ := serves
    simp only [Store.select, unboundTools_eq, activeTools, same.bindings, same.tools]
  | getTool owner toolId => simp only [Store.select, findTool, same.tools]
  | getRun owner runId => exact absurd rfl (other owner runId)
  | beginRunExecution | finalizeRun | appendEvent => rfl
  | _ => exact serves.elim

/-! ## A store with the same run -/

section Projection

variable {db db' twin : Database} {c : Choice}

theorem Database.SameRun.findRun (same : SameRun runId db db') (tenantId : Uuid) :
    db'.store.findRun tenantId runId = db.store.findRun tenantId runId := by
  have split (s : Store) : s.findRun tenantId runId = (s.runs.filter (·.id == runId)).find?
      (·.tenantId == tenantId) := by
    rw [Store.findRun, List.find?_filter]
    simp only [Bool.and_comm, Bool.decide_and, Bool.decide_eq_true]
  rw [split, split, same.row]

/-- The other database has the rows that the task of this run uses, and no events besides. -/
structure Database.Mirrors (tenantId runId : Uuid) (agent : AgentRow) (db twin : Database) : Prop where
  reads : db.store.SameReads tenantId agent twin.store
  run : SameRun runId db twin
  fewer : twin.store.runTraces ⊆ db.store.runTraces

namespace Database.Mirrors

/-- An update of the run meets the same rows. -/
theorem updateRuns (mirrors : Mirrors tenantId runId agent db twin) {selected : RunRow → Bool}
    {update : RunRow → RunRow} {answer : Except SqlxError ℕ} (chosen : ∀ row, selected row = true → row.id = runId)
    (keeps : ∀ row, (update row).id = row.id) (ran : db.updateRuns selected update = (answer, db')) :
    ∃ twin', twin.updateRuns selected update = (answer, twin') ∧ Mirrors tenantId runId agent db' twin' := by
  have counted (rows : List RunRow) : rows.countP selected = (rows.filter (·.id == runId)).countP selected := by
    rw [List.countP_filter]
    apply List.countP_congr
    intro row _
    simp only [Bool.and_eq_true, beq_iff_eq]
    exact ⟨fun hit => ⟨hit, chosen row hit⟩, And.left⟩
  have updated (rows : List RunRow) : (rows.map fun row => if selected row then update row else row).filter
      (·.id == runId) = (rows.filter (·.id == runId)).map fun row => if selected row then update row else row := by
    rw [List.filter_map]
    congr 1
    apply List.filter_congr
    intro row _
    simp only [Function.comp]
    split
    · rw [keeps]
    · rfl
  cases ran
  obtain ⟨tools, bindings, agent⟩ := mirrors.reads
  refine ⟨(twin.updateRuns selected update).2, Prod.ext ?_ rfl, ⟨tools, bindings, agent⟩,
    ⟨?_, mirrors.run.events⟩, mirrors.fewer⟩
  · simp only [Database.updateRuns, Store.updateRuns]
    rw [counted, mirrors.run.row, ← counted]
  · simp only [Database.updateRuns, Store.updateRuns]
    rw [updated, mirrors.run.row, ← updated]

theorem appendEvent (mirrors : Mirrors tenantId runId agent db twin) {eventType : EventType} {payload : Value}
    (ran : db.appendEvent c tenantId runId eventType payload = (.ok (), db')) :
    ∃ twin', twin.appendEvent c tenantId runId eventType payload = (.ok (), twin') ∧
      Mirrors tenantId runId agent db' twin' := by
  have rows := mirrors.run.traceRows tenantId
  have number : twin.store.nextSeq tenantId runId = db.store.nextSeq tenantId runId :=
    by rw [Store.nextSeq, Store.nextSeq, rows]
  have there : (twin.store.runs.any fun run => run.tenantId == tenantId && run.id == runId) =
      db.store.runs.any fun run => run.tenantId == tenantId && run.id == runId := by
    have found := congrArg Option.isSome (mirrors.run.findRun tenantId)
    simpa only [Store.findRun, List.isSome_find?] using found
  simp only [Database.appendEvent] at ran ⊢
  rw [number, rows, there]
  split_ifs at ran with fits object taken clash orphan
  · cases ran
  · cases ran
  · cases ran
  · cases ran
  · have new : ¬ twin.store.runTraces.any (·.id == c.id) = true := by
      simp only [List.any_eq_true, not_exists, not_and] at taken ⊢
      exact fun row member => taken row (mirrors.fewer member)
    rw [if_neg (not_not.mpr fits), if_neg object, if_neg new, if_neg clash, if_neg orphan]
    cases ran
    obtain ⟨tools, bindings, agent⟩ := mirrors.reads
    refine ⟨_, rfl, ⟨tools, bindings, agent⟩, ⟨mirrors.run.row, ?_⟩, ?_⟩
    · simp only [List.filter_append, mirrors.run.events]
    · exact List.append_subset.mpr ⟨List.subset_append_of_subset_left _ mirrors.fewer, List.subset_append_right _ _⟩
  · cases ran

/-- A statement of the task has the same answer and effect. -/
theorem execute (mirrors : Mirrors tenantId runId agent db twin) {statement : Statement} {row : statement.Row}
    (serves : (Op.sql statement).Serves tenantId runId agent.id)
    (ran : db.execute c statement = some (.ok row, db')) :
    ∃ twin', twin.execute c statement = some (.ok row, twin') ∧ Mirrors tenantId runId agent db' twin' := by
  have healthy : c.fail = false := by
    by_contra failing
    rw [Bool.not_eq_false] at failing
    cases (execute_failing failing).symm.trans ran
  have on : ¬ c.fail = true := by simp [healthy]
  have answers {answer : statement.Row} (left : db.store.select c statement = some answer)
      (right : twin.store.select c statement = some answer) :
      ∃ twin', twin.execute c statement = some (.ok row, twin') ∧ Mirrors tenantId runId agent db' twin' := by
    obtain ⟨rfl, rfl⟩ := answer_of_select (executed ran) left
    exact ⟨twin, execute_select healthy right, mirrors⟩
  cases statement with
  | getRun owner run =>
    obtain ⟨rfl, rfl⟩ := serves
    exact answers rfl (congrArg some (mirrors.run.findRun owner))
  | getAgent | getTool | getAgentToolIds | listAgentTools | findUnboundActiveTool =>
    exact answers rfl (mirrors.reads.select serves (by rintro _ _ ⟨⟩))
  | beginRunExecution owner run =>
    obtain ⟨rfl, rfl⟩ := serves
    simp only [Database.execute, if_neg on, Option.some.injEq] at ran ⊢
    exact mirrors.updateRuns (fun row chosen => by simp_all) (fun _ => rfl) ran
  | finalizeRun owner run status finalAnswer errorReason =>
    obtain ⟨rfl, rfl⟩ := serves
    simp only [Database.execute, if_neg on, Option.some.injEq] at ran ⊢
    exact mirrors.updateRuns (fun row chosen => by simp_all) (fun _ => rfl) ran
  | appendEvent owner run eventType payload =>
    obtain ⟨rfl, rfl⟩ := serves
    simp only [Database.execute, if_neg on, Option.some.injEq] at ran ⊢
    exact mirrors.appendEvent ran
  | _ => exact serves.elim

end Database.Mirrors

end Projection

/-! ## Programs that get expected answers -/

/-- Up to the row of the run, what is expected is one answer. -/
theorem Expected.unique {op : Op} (serves : op.Serves request.tenantId request.id agent.id)
    (other : ∀ tenantId runId, op ≠ .sql (.getRun tenantId runId)) {answer answer' : op.Answer}
    (expected : Expected s request tie op answer) (expected' : Expected s request tie op answer') :
    answer = answer' := by
  cases op with
  | dropPermit semaphore => rfl
  | sql statement =>
    cases statement with
    | getRun tenantId runId => exact absurd rfl (other tenantId runId)
    | beginRunExecution | finalizeRun | appendEvent => exact expected.trans expected'.symm
    | getAgent | listAgentTools | findUnboundActiveTool | getAgentToolIds | getTool =>
      obtain ⟨c, row, ordered, selected, rfl⟩ := expected
      obtain ⟨c', row', ordered', selected', rfl⟩ := expected'
      rw [Store.select_tie (ordered.trans ordered'.symm)] at selected
      rw [Option.some.inj (selected.symm.trans selected')]
    | _ => exact serves.elim
  | _ => exact serves.elim

/-- After all expected answers the program goes on in the same way. -/
abbrev Predictable {ε α : Type} (s : Store) (request : RunRow) (tie : Op → Uuid → ℕ) (agent : AgentRow)
    (program : Program signature ε α) : Prop :=
  program.Agrees (Op.Serves request.tenantId request.id agent.id) fun op answer answer' =>
    Expected s request tie op answer ∧ Expected s request tie op answer'

theorem predictable_of_uses {ε α : Type} {program : Program signature ε α} (uses : program.Uses fun op : Op =>
    op.Serves request.tenantId request.id agent.id ∧ ∀ tenantId runId, op ≠ .sql (.getRun tenantId runId)) :
    Predictable s request tie agent program :=
  Program.Uses.agrees uses (fun _ kind => kind.1) fun _ kind _ _ alike => alike.1.unique kind.1 kind.2 alike.2

theorem allowsLoop_serves : AllowsLoop (fun op : Op => op.Serves request.tenantId request.id agent.id ∧
    ∀ tenantId runId, op ≠ .sql (.getRun tenantId runId)) request.tenantId request.id agent.id where
  find := ⟨⟨rfl, rfl⟩, by rintro _ _ ⟨⟩⟩
  tool _ := ⟨rfl, by rintro _ _ ⟨⟩⟩
  bound := ⟨⟨rfl, rfl⟩, by rintro _ _ ⟨⟩⟩
  settle _ _ _ := ⟨⟨rfl, rfl⟩, by rintro _ _ ⟨⟩⟩
  append _ _ _ _ := ⟨⟨rfl, rfl⟩, by rintro _ _ ⟨⟩⟩

theorem predictable_executeStartedRun (same : request.agentId = agent.id)
    (found : s.findAgent request.tenantId agent.id = some agent) :
    Predictable s request tie agent (executeStartedRun lib request.tenantId request.id) := by
  have append (eventType : EventType) (payload : Value) :
      Predictable s request tie agent (Trace.appendEvent request.tenantId request.id eventType payload) :=
    predictable_of_uses (uses_query ⟨⟨rfl, rfl⟩, by rintro _ _ ⟨⟩⟩)
  refine Program.Agrees.bind (append ..) fun _ => Program.Agrees.bind (append ..) fun _ => ?_
  refine ⟨⟨rfl, rfl⟩, ?_⟩
  rintro _ _ ⟨⟨row, rfl, asked⟩, ⟨row', rfl, asked'⟩⟩
  have agents : row.agentId = agent.id := asked.agentId.trans same
  have messages : row'.inputMessages = row.inputMessages := asked'.inputMessages.trans asked.inputMessages.symm
  have agents' : row'.agentId = row.agentId := asked'.agentId.trans asked.agentId.symm
  obtain ⟨id, tenantId, agentId, status, inputMessages, finalAnswer, errorReason, key, createdAt,
    startedAt, finishedAt⟩ := row
  obtain ⟨id', tenantId', agentId', status', inputMessages', finalAnswer', errorReason', key', createdAt',
    startedAt', finishedAt'⟩ := row'
  cases agents
  cases agents'
  cases messages
  refine ⟨rfl, ⟨rfl, rfl⟩, ?_⟩
  rintro _ _ ⟨⟨_, row, _, selected, rfl⟩, ⟨_, row', _, selected', rfl⟩⟩
  obtain rfl : row = some agent := (Option.some.inj selected).symm.trans found
  obtain rfl : row' = some agent := (Option.some.inj selected').symm.trans found
  refine ⟨rfl, ?_⟩
  have listed : Predictable s request tie agent (Db.listAgentTools lib request.tenantId agent.id) :=
    predictable_of_uses (Program.uses_bind (uses_query ⟨⟨rfl, rfl⟩, by rintro _ _ ⟨⟩⟩) fun _ => True.intro)
  change Predictable s request tie agent (Db.listAgentTools lib request.tenantId agent.id >>= _ : Act Unit)
  apply Program.Agrees.bind listed
  intro boundTools
  exact Program.Agrees.bind (predictable_of_uses (uses_okOr ..)) fun messages =>
    predictable_of_uses (uses_agentLoop _ allowsLoop_serves ..)

/-- A task goes on in the same way after all answers that its rows let expect. -/
theorem predictable_task (same : request.agentId = agent.id)
    (found : s.findAgent request.tenantId agent.id = some agent) :
    Predictable s request tie agent (Task.body lib (.executeRun request.tenantId request.id)) := by
  have drop (semaphore : SemaphoreRef) : Predictable s request tie agent (act (.dropPermit semaphore) : Act Unit) :=
    predictable_of_uses (Program.uses_perform ⟨True.intro, by rintro _ _ ⟨⟩⟩)
  obtain ⟨begun, begins, body, _⟩ : ∃ next, executeRun lib request.tenantId request.id = _ ∧ _ := executeRun_eq_call
  have work : Predictable s request tie agent (executeRun lib request.tenantId request.id) := by
    rw [begins]
    refine ⟨⟨rfl, rfl⟩, ?_⟩
    rintro _ _ ⟨rfl, rfl⟩
    rw [body]
    exact ⟨rfl, predictable_executeStartedRun same found⟩
  refine Program.Agrees.bind (Program.Agrees.handle work fun _ => Program.Agrees.handle ?_ fun _ =>
    True.intro) fun _ => True.intro
  exact Program.Agrees.bind (drop _) fun _ => drop _

end AgentPlatform
