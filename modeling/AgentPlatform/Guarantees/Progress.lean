import AgentPlatform.Database.Waiting
import AgentPlatform.Guarantees.Course
import AgentPlatform.Ownership.Effort
import AgentPlatform.Ownership.Permits
import AgentPlatform.Ownership.Transacting

/-! # Cleaning up and coming to an end

A request that has returned leaves no transaction and no permit behind. What it does in between is
bounded, and nothing in progress can be stuck: whoever waits for a transaction waits for a request
that can go on without waiting for anybody, on the connection that it already has. So whatever state
the server is in, its requests and tasks come to an end when the database works.
-/

set_option autoImplicit false

namespace AgentPlatform

open Interleaving Relational Database Scheduler Scenario

variable {lib : Libraries} {config : Config} {s : Store} {events : List (Event (platform lib config))}
  {pool : Pool (platform lib config)} {i j : ℕ} {tx : Uuid}

/-! ## Nothing is left open -/

/-- Thread `i` is there and has not returned. -/
def Unfinished (pool : Pool (platform lib config)) (i : ℕ) : Prop :=
  ∃ thread, pool.threads[i]? = some thread ∧ ∀ result, thread.program ≠ .done result

/-- A request with an open transaction has not returned. -/
theorem unfinished_of_session (path : Path (booted lib config s) events pool)
    (mine : (session i events).transaction? = some tx) : Unfinished pool i := by
  rcases Nat.lt_or_ge i pool.threads.length with inside | outside
  · refine ⟨_, List.getElem?_eq_getElem inside, fun result finished => ?_⟩
    have obeys := session_obeys path (List.getElem?_eq_getElem inside)
    rw [finished] at obeys
    have closed : session i events = .outside := obeys
    rw [closed] at mine
    cases mine
  · rw [session, path.standing_absent rfl outside] at mine
    cases mine

/-- Some uncommitted row belongs to this transaction. -/
def Database.Stages (db : Database) (tx : Uuid) : Prop :=
  (∃ row, (tx, row) ∈ db.pendingAgents) ∨ (∃ row, (tx, row) ∈ db.pendingAgentTools) ∨
    ∃ row, (tx, row) ∈ db.pendingRuns

theorem Database.Open.alive {db : Database} (pending : db.Open) (stages : db.Stages tx) :
    (db.findTransaction tx).isSome := by
  rcases stages with ⟨row, staged⟩ | ⟨row, staged⟩ | ⟨row, staged⟩
  · exact pending.agents tx row staged
  · exact pending.agentTools tx row staged
  · exact pending.runs tx row staged

theorem findTransaction_of_mem {db : Database} {entry : Uuid × Transaction} (member : entry ∈ db.transactions) :
    (db.findTransaction entry.1).isSome := by
  by_contra absent
  have none_left := List.lookup_eq_none_iff.mp (Option.not_isSome_iff_eq_none.mp absent) entry member
  simp at none_left

/-- Every open transaction belongs to exactly one request, which has not returned. Once all requests and
tasks have returned, no transaction and no uncommitted row is left, and every permit is available. -/
theorem nothing_left_open (left : Left lib s) (path : Path (booted lib config s) events pool) :
    (∀ tx, (pool.shared.db.findTransaction tx).isSome ∨ pool.shared.db.Stages tx →
      ∃! i, (session i events).transaction? = some tx ∧ Unfinished pool i) ∧
    (pool.Settled → pool.shared.db = { store := pool.shared.db.store } ∧
      ∀ semaphore, pool.shared.scheduler.available semaphore = pool.shared.scheduler.capacity config semaphore) := by
  have transacting := transacting left path
  have pending := (valid_of_booted left path).wellFormed.pending
  have owner {tx : Uuid} (alive : (pool.shared.db.findTransaction tx).isSome) :
      ∃ i, (session i events).transaction? = some tx ∧ Unfinished pool i := by
    obtain ⟨i, mine⟩ := transacting.owned tx alive
    exact ⟨i, mine, unfinished_of_session path mine⟩
  refine ⟨fun tx there => ?_, fun settled => ⟨?_, fun semaphore => ?_⟩⟩
  · obtain ⟨i, mine, unfinished⟩ := owner (there.elim id pending.alive)
    exact ⟨i, ⟨mine, unfinished⟩, fun j ⟨theirs, _⟩ => transacting.apart j i tx theirs mine⟩
  · have closed (tx : Uuid) : ¬ (pool.shared.db.findTransaction tx).isSome := by
      intro alive
      obtain ⟨i, _, thread, present, unfinished⟩ := owner alive
      obtain ⟨result, finished⟩ := settled i thread present
      exact unfinished result finished
    have transactions : pool.shared.db.transactions = [] :=
      List.eq_nil_iff_forall_not_mem.mpr fun entry member => closed entry.1 (findTransaction_of_mem member)
    have agents : pool.shared.db.pendingAgents = [] :=
      List.eq_nil_iff_forall_not_mem.mpr fun entry member => closed entry.1 (pending.agents entry.1 entry.2 member)
    have agentTools : pool.shared.db.pendingAgentTools = [] :=
      List.eq_nil_iff_forall_not_mem.mpr fun entry member =>
        closed entry.1 (pending.agentTools entry.1 entry.2 member)
    have runs : pool.shared.db.pendingRuns = [] :=
      List.eq_nil_iff_forall_not_mem.mpr fun entry member => closed entry.1 (pending.runs entry.1 entry.2 member)
    generalize pool.shared.db = db at *
    obtain ⟨store, _, _, _, _⟩ := db
    simp_all
  · obtain ⟨claims, holds⟩ := holds_of_booted left path
    have nobody : held pool semaphore = 0 := by
      refine List.sum_eq_zero fun amount member => ?_
      obtain ⟨thread, present, rfl⟩ := List.mem_map.mp member
      obtain ⟨i, there⟩ := List.getElem?_of_mem present
      obtain ⟨task, owned, program⟩ := thread
      obtain ⟨result, finished⟩ := settled i _ there
      subst finished
      obtain ⟨_, found, returns⟩ := holds.returned ⟨owned, there⟩
      cases there.symm.trans found
      simp [Task.Returns.permits returns]
    have conserved := permits_conserved_from path rfl rfl semaphore
    omega

namespace Scenario

/-- The service up to the middle of the transaction that creates the agent. -/
def creating : List (Label (platform permissive ⟨1, 1⟩)) :=
  onboarding ++ [arrive (.createTool headers staticTool)] ++ moves 2 10 2 ++
  [arrive (.createAgent headers ⟨none, "Answer.", [11], 5⟩)] ++ moves 3 20 4

/-- Some agent is inserted and not committed. -/
def stagesAgent (pool : Pool (platform permissive config)) : Bool :=
  0 < pool.shared.db.pendingAgents.length

theorem of_stagesAgent {pool : Pool (platform permissive config)} (checked : stagesAgent pool = true) :
    ∃ tx, pool.shared.db.Stages tx := by
  obtain ⟨⟨tx, row⟩, member⟩ := List.exists_mem_of_length_pos (of_decide_eq_true checked)
  exact ⟨tx, .inl ⟨row, member⟩⟩

def allReturned (pool : Pool (platform permissive config)) : Bool :=
  pool.threads.all fun thread => match thread.program with
    | .done _ => true
    | .call _ _ => false

theorem of_allReturned {pool : Pool (platform permissive config)} (checked : allReturned pool = true) :
    pool.Settled := by
  intro i thread present
  have done := List.all_eq_true.mp checked thread (List.mem_of_getElem? present)
  cases same : thread.program with
  | done result => exact ⟨result, rfl⟩
  | call op rest =>
    rw [same] at done
    cases done

theorem allReturned_of_settled {pool : Pool (platform permissive config)} (settled : pool.Settled) :
    allReturned pool = true := by
  refine List.all_eq_true.mpr fun thread member => ?_
  obtain ⟨i, present⟩ := List.getElem?_of_mem member
  obtain ⟨result, same⟩ := settled i thread present
  rw [same]

end Scenario

/-- A request is creating an agent; later, after the service, nothing is open. -/
theorem nothing_left_open_service : (∃ events pool, Path (booted permissive ⟨1, 1⟩ {}) events pool ∧ ∃ tx,
      pool.shared.db.Stages tx ∧ ∃! i, (session i events).transaction? = some tx ∧ Unfinished pool i) ∧
    ∃ events pool, Path (booted permissive ⟨1, 1⟩ {}) events pool ∧ logs .runEnd pool = true ∧ pool.Settled ∧
      pool.shared.db = { store := pool.shared.db.store } := by
  constructor
  · obtain ⟨events, pool, path, checked⟩ :=
      (started permissive ⟨1, 1⟩).exists_path creating (fun _ pool => stagesAgent pool) (by decide +kernel)
    rw [started_eq_booted] at path
    obtain ⟨tx, stages⟩ := of_stagesAgent checked
    exact ⟨events, pool, path, tx, stages, (nothing_left_open Left.empty path).1 tx (.inr stages)⟩
  · obtain ⟨events, pool, path, checked⟩ := (started permissive ⟨1, 1⟩).exists_path service
      (fun _ pool => logs .runEnd pool && allReturned pool) (by decide +kernel)
    rw [started_eq_booted] at path
    obtain ⟨logged, returned⟩ := Bool.and_eq_true_iff.mp checked
    have settled := of_allReturned returned
    exact ⟨events, pool, path, logged, settled, ((nothing_left_open Left.empty path).2 settled).1⟩

/-! ## Steps of a working server -/

/-- The operation needs a connection of its own; a statement inside a transaction has the connection of
its transaction. -/
def Op.TakesConnection : Op → Prop
  | .sql statement => statement.transaction? = none
  | _ => False

/-- A step of a working server with so many connections. -/
def Works (connections : ℕ) (pool : Pool (platform lib config)) : Event (platform lib config) → Prop
  | .arrived _ => False
  | .performed _ c what => c.fail = false ∧
    (what.op.TakesConnection → pool.shared.db.transactions.length < connections)

/-- Thread `i` can make such a step. -/
def Ready (connections : ℕ) (pool : Pool (platform lib config)) (i : ℕ) : Prop :=
  ∃ c what next, Step pool (.performed i c what) next ∧ Works connections pool (.performed i c what)

/-- A choice of a working environment. -/
def healthy (id : Uuid) (new : id ≠ Uuid.nil) (count : ℕ) : Choice where
  id := id
  id_not_nil := new
  chars := List.replicate count 'a'

/-- Somebody with an open transaction that has got past its first statement never waits. -/
theorem executes_inserted {db : Database} {agentId : Option Uuid} {statement : Statement} {c : Choice}
    (wellFormed : db.WellFormed) (describes : (Session.inserted tx agentId).Describes db)
    (allowed : (Session.inserted tx agentId).allows (.sql statement)) (new : c.id ∉ db.occupied) :
    ∃ outcome, db.execute c statement = some outcome := by
  by_contra stuck
  have stuck : db.execute c statement = none :=
    Option.eq_none_iff_forall_ne_some.mpr fun outcome ran => stuck ⟨outcome, ran⟩
  obtain ⟨other, waits⟩ := waits_of_stuck new stuck
  cases statement with
  | insertAgentTool tx' tenantId agent toolId =>
    obtain ⟨rfl, rfl⟩ := allowed
    obtain ⟨different, binding, staged, _, sameAgent, _⟩ := waits
    -- both transactions would have inserted the same agent
    obtain ⟨transaction, found, mine, _⟩ := describes
    have alive : transaction.aborted = false := by
      unfold execute at stuck
      split at stuck
      · cases stuck
      obtain ⟨_, found', alive, _⟩ := within_stuck stuck
      cases found.symm.trans found'
      exact alive
    obtain ⟨row, inserted, named⟩ := mine agent rfl alive
    obtain ⟨row', inserted', _, named'⟩ := wellFormed.bindings.pendingAgent other binding (mem_own.mp staged)
    have same := wellFormed.agents.ids.owner_eq (mem_own.mp inserted) inserted' (congrArg some named)
      (congrArg some (named'.trans sameAgent))
    exact different (congrArg Prod.fst same).symm
  | insertAgent tx' tenantId name systemPrompt maxIterations => exact allowed.elim
  | insertRun tx' tenantId agent inputMessages idempotencyKey => exact allowed.elim
  | _ => exact waits.elim

/-- An operation that is no statement never waits. -/
theorem executes_other {op : Op} {permits : List SemaphoreRef} {w : World} (other : ∀ statement, op ≠ .sql statement)
    (id : Uuid) (new : id ≠ Uuid.nil) :
    ∃ count effect, op.exec config Task.executeRun (healthy id new count) permits w = some effect := by
  cases op with
  | sql statement => exact absurd rfl (other statement)
  | tryAcquireOwned semaphore =>
    refine ⟨0, ?_⟩
    simp only [Op.exec]
    split <;> exact ⟨_, rfl⟩
  | dropPermit semaphore =>
    refine ⟨0, ?_⟩
    simp only [Op.exec]
    split <;> exact ⟨_, rfl⟩
  | sampleAlphanumeric count =>
    refine ⟨count, _, if_pos ⟨List.length_replicate, List.all_eq_true.mpr fun c member => ?_⟩⟩
    rw [List.eq_of_mem_replicate member]
    rfl
  | _ => exact ⟨0, _, rfl⟩

section Readiness

variable {connections : ℕ} {id : Uuid} {task : Task} {owned : List SemaphoreRef} {op : Op}
  {rest : op.Answer → Act Response}

theorem ready_of_exec {c : Choice} {effect : Effect signature (List SemaphoreRef) World Task op}
    (present : pool.threads[i]? = some ⟨task, owned, .call op rest⟩)
    (ran : op.exec config Task.executeRun c owned pool.shared = some effect) (fine : c.fail = false)
    (connected : op.TakesConnection → pool.shared.db.transactions.length < connections) : Ready connections pool i :=
  ⟨c, _, _, .act present ran, fine, connected⟩

/-- A thread whose next operation is no statement is ready. -/
theorem ready_other (present : pool.threads[i]? = some ⟨task, owned, .call op rest⟩)
    (other : ∀ statement, op ≠ .sql statement) (new : id ≠ Uuid.nil) : Ready connections pool i := by
  obtain ⟨count, effect, ran⟩ := executes_other other id new
  exact ready_of_exec present ran rfl (by cases op <;> first | exact absurd rfl (other _) | exact False.elim)

/-- A request in the middle of its transaction is ready, however many connections are taken. -/
theorem ready_inserted (left : Left lib s) (path : Path (booted lib config s) events pool) {agentId : Option Uuid}
    (mine : session i events = .inserted tx agentId) (new : id ≠ Uuid.nil) (unused : id ∉ pool.shared.db.occupied) :
    Ready connections pool i := by
  obtain ⟨⟨task, owned, program⟩, present, unfinished⟩ := unfinished_of_session path (by rw [mine]; rfl)
  have obeys := session_obeys path present
  have describes := (transacting left path).describes i
  rw [mine] at obeys describes
  cases program with
  | done result => exact absurd rfl (unfinished result)
  | call op rest =>
    have allowed : (Session.inserted tx agentId).allows op := obeys.1
    by_cases sql : ∃ statement, op = .sql statement
    · obtain ⟨statement, rfl⟩ := sql
      obtain ⟨outcome, ran⟩ := executes_inserted (c := healthy id new 0)
        (valid_of_booted left path).wellFormed describes allowed unused
      refine ready_of_exec present (Option.map_eq_some_iff.mpr ⟨outcome, ran, rfl⟩) rfl ?_
      intro (outside : statement.transaction? = none)
      cases statement <;> first | exact allowed.elim | cases outside
    · exact ready_other present (fun statement same => sql ⟨statement, same⟩) new

end Readiness

/-! ## Enough ids -/

/-- Every step occupies at most one more id. -/
theorem occupied_step {event : Event (platform lib config)} {next : Pool (platform lib config)}
    (step : Step pool event next) : next.shared.db.occupied.length ≤ pool.shared.db.occupied.length + 1 := by
  rcases database_of_step step with same | ⟨tx, rolled⟩ | ⟨i, c, statement, answer, _, executes⟩
  · rw [same]
    exact Nat.le_add_right _ 1
  · rw [rolled]
    exact occupied_rollback.trans (Nat.le_add_right _ 1)
  · exact occupied_executed (executed executes)

theorem occupied_path (path : Path (booted lib config s) events pool) :
    pool.shared.db.occupied.length ≤ events.length := by
  induction path with
  | nil => exact Nat.le_refl 0
  | snoc path step ih =>
    rw [List.length_append, List.length_singleton]
    have more := occupied_step step
    omega

/-- After fewer steps than there are ids, some id can still be generated. -/
theorem exists_new (path : Path (booted lib config s) events pool) (few : events.length + 1 < 2 ^ 128) :
    ∃ id : Uuid, id ≠ Uuid.nil ∧ id ∉ pool.shared.db.occupied := by
  have short := occupied_path path
  obtain ⟨id, new⟩ := exists_unused (Uuid.nil :: pool.shared.db.occupied) (by rw [List.length_cons]; omega)
  rw [List.mem_cons, not_or] at new
  exact ⟨id, new⟩

/-! ## Nobody is stuck -/

section Deadlock

variable {connections : ℕ} {id : Uuid}

/-- The transaction that a statement waits for has got past its first statement. -/
theorem inserted_of_waits {statement : Statement} (describes : (session i events).Describes pool.shared.db)
    (waits : pool.shared.db.WaitsFor tx statement) (mine : (session i events).transaction? = some tx) :
    ∃ agentId, session i events = .inserted tx agentId := by
  cases same : session i events with
  | outside =>
    rw [same] at mine
    cases mine
  | inserted other agentId =>
    rw [same] at mine
    cases mine
    exact ⟨agentId, rfl⟩
  | opened other =>
    rw [same] at mine describes
    cases mine
    obtain ⟨_, agents, agentTools, runs⟩ := describes
    cases statement with
    | insertAgent tx' tenantId name systemPrompt maxIterations =>
      obtain ⟨_, row, member, _⟩ := waits
      rw [agents] at member
      cases member
    | insertAgentTool tx' tenantId agentId toolId =>
      obtain ⟨_, row, member, _⟩ := waits
      rw [agentTools] at member
      cases member
    | insertRun tx' tenantId agentId inputMessages idempotencyKey =>
      obtain ⟨_, row, member, _⟩ := waits
      rw [runs] at member
      cases member
    | _ => exact waits.elim

/-- A statement that has its connection is executed, or the transaction it waits for can go on. -/
theorem ready_sql (left : Left lib s) (path : Path (booted lib config s) events pool) (new : id ≠ Uuid.nil)
    (unused : id ∉ pool.shared.db.occupied) {task : Task} {owned : List SemaphoreRef} {statement : Statement}
    {rest : Except SqlxError statement.Row → Act Response}
    (present : pool.threads[i]? = some ⟨task, owned, .call (.sql statement) rest⟩)
    (connected : statement.transaction? = none → pool.shared.db.transactions.length < connections) :
    ∃ j, Ready connections pool j := by
  cases ran : pool.shared.db.execute (healthy id new 0) statement with
  | some outcome => exact ⟨i, ready_of_exec present (Option.map_eq_some_iff.mpr ⟨outcome, ran, rfl⟩) rfl connected⟩
  | none =>
    obtain ⟨tx, waits⟩ := waits_of_stuck (c := healthy id new 0) unused ran
    have staged : pool.shared.db.Stages tx := by
      cases statement with
      | insertAgent tx' tenantId name systemPrompt maxIterations =>
        obtain ⟨_, row, member, _⟩ := waits
        exact .inl ⟨row, mem_own.mp member⟩
      | insertAgentTool tx' tenantId agentId toolId =>
        obtain ⟨_, row, member, _⟩ := waits
        exact .inr (.inl ⟨row, mem_own.mp member⟩)
      | insertRun tx' tenantId agentId inputMessages idempotencyKey =>
        obtain ⟨_, row, member, _⟩ := waits
        exact .inr (.inr ⟨row, mem_own.mp member⟩)
      | _ => exact waits.elim
    have transacting := transacting left path
    have alive := (valid_of_booted left path).wellFormed.pending.alive staged
    obtain ⟨j, mine⟩ := transacting.owned tx alive
    obtain ⟨agentId, inserted⟩ := inserted_of_waits (transacting.describes j) waits mine
    exact ⟨j, ready_inserted left path inserted new unused⟩

theorem unfinished_of_unsettled (unsettled : ¬ pool.Settled) : ∃ i, Unfinished pool i := by
  by_contra settled
  refine unsettled fun i thread present => ?_
  by_contra unfinished
  exact settled ⟨i, thread, present, fun result same => unfinished ⟨result, same⟩⟩

/-- With a free connection somebody can go on. -/
theorem ready_of_free (left : Left lib s) (path : Path (booted lib config s) events pool)
    (few : events.length + 1 < 2 ^ 128) (free : pool.shared.db.transactions.length < connections)
    (unsettled : ¬ pool.Settled) : ∃ i, Ready connections pool i := by
  obtain ⟨id, new, unused⟩ := exists_new path few
  obtain ⟨i, ⟨task, owned, program⟩, present, unfinished⟩ := unfinished_of_unsettled unsettled
  cases program with
  | done result => exact absurd rfl (unfinished result)
  | call op rest =>
    by_cases sql : ∃ statement, op = .sql statement
    · obtain ⟨statement, rfl⟩ := sql
      exact ready_sql left path new unused present fun _ => free
    · exact ⟨i, ready_other present (fun statement same => sql ⟨statement, same⟩) new⟩

/-- When all connections are taken, the owner of a transaction can go on with the connection that it has. -/
theorem ready_of_taken (left : Left lib s) (path : Path (booted lib config s) events pool)
    (few : events.length + 1 < 2 ^ 128) (some_connection : 0 < connections)
    (taken : connections ≤ pool.shared.db.transactions.length) : ∃ i, Ready connections pool i := by
  obtain ⟨id, new, unused⟩ := exists_new path few
  have transacting := transacting left path
  obtain ⟨entry, member⟩ := List.exists_mem_of_length_pos (Nat.lt_of_lt_of_le some_connection taken)
  obtain ⟨i, mine⟩ := transacting.owned entry.1 (findTransaction_of_mem member)
  obtain ⟨⟨task, owned, program⟩, present, unfinished⟩ := unfinished_of_session path mine
  cases same : session i events with
  | outside =>
    rw [same] at mine
    cases mine
  | inserted tx agentId => exact ⟨i, ready_inserted left path same new unused⟩
  | opened tx =>
    cases program with
    | done result => exact absurd rfl (unfinished result)
    | call op rest =>
      have allowed : (session i events).allows op := (session_obeys path present).1
      rw [same] at allowed
      cases op with
      | sql statement =>
        refine ready_sql left path new unused present ?_
        intro outside
        cases statement <;> first | exact allowed.elim | cases outside
      | _ => exact allowed.elim

/-- As long as somebody has not returned, somebody can make a step of a working server, even if all
connections are taken by transactions. -/
theorem never_stuck (left : Left lib s) (path : Path (booted lib config s) events pool)
    (few : events.length + 1 < 2 ^ 128) (some_connection : 0 < connections) (unsettled : ¬ pool.Settled) :
    ∃ i, Ready connections pool i := by
  rcases Nat.lt_or_ge pool.shared.db.transactions.length connections with free | taken
  · exact ready_of_free left path few free unsettled
  · exact ready_of_taken left path few some_connection taken

end Deadlock

/-- Nobody is stuck in the middle of a transaction that has taken the only connection. -/
theorem never_stuck_creating : ∃ events pool, Path (booted permissive ⟨1, 1⟩ {}) events pool ∧
    pool.shared.db.transactions.length = 1 ∧ ∃ i, Ready 1 pool i := by
  obtain ⟨events, pool, path, checked⟩ := (started permissive ⟨1, 1⟩).exists_path creating
    (fun events pool => !allReturned pool &&
      (pool.shared.db.transactions.length == 1 && decide (events.length < 100)))
    (by decide +kernel)
  rw [started_eq_booted] at path
  obtain ⟨busy, checked⟩ := Bool.and_eq_true_iff.mp checked
  obtain ⟨taken, few⟩ := Bool.and_eq_true_iff.mp checked
  have short := of_decide_eq_true few
  have unsettled : ¬ pool.Settled := fun settled => by simp [allReturned_of_settled settled] at busy
  exact ⟨events, pool, path, by simpa using taken, never_stuck Left.empty path (by omega) Nat.one_pos unsettled⟩

/-! ## Coming to an end -/

/-- However many iterations the agents admit and whatever is answered, a run of the server is never longer
than what its requests may cost. -/
theorem effort_bounded (path : Path (booted lib config s) events pool) : events.length ≤ workload Task.load events :=
  path.length_le_workload rfl pays_cost within_load

/-- The service up to the end of its run. -/
theorem effort_bounded_served : ∃ events pool, Path (booted permissive ⟨1, 1⟩ {}) events pool ∧
    logs .runEnd pool = true ∧
    events.length ≤ workload Task.load events := by
  obtain ⟨events, pool, path, _, logged⟩ := served
  exact ⟨events, pool, path, logged, effort_bounded path⟩

end AgentPlatform
