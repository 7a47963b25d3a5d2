import AgentPlatform.Guarantees.AtMostOnce
import AgentPlatform.Guarantees.Completion

/-! # How `start_run` ends

A request whose key names an existing run is answered with a database error, because the failed
`INSERT` has aborted the transaction in which the fallback query runs. A request that fails leaves
its run pending exactly if one of two writes failed.
-/

set_option autoImplicit false

namespace AgentPlatform

open Interleaving Relational Database Scenario

variable {lib : Libraries} {config : Config} {events before after : List (Event (platform lib config))}
  {pool middle : Pool (platform lib config)} {i : ℕ} {sent : HeaderMap} {agentId : Uuid}
  {body : StartRunRequest}

/-! ## Replayed keys -/

/-- A run stays what was requested. -/
theorem sameRequest_of_path (path : Path (started lib config) before middle) (later : Path middle after pool)
    {run : RunRow} (present : run ∈ middle.shared.db.store.runs) :
    ∃ other ∈ pool.shared.db.store.runs, run.SameRequest other := by
  induction later with
  | nil => exact ⟨run, present, .refl run⟩
  | snoc later step ih =>
    obtain ⟨other, found, same⟩ := ih
    obtain ⟨last, there, since⟩ := (evolves_of_started (path.append later) step).runs other found
    exact ⟨last, there, same.trans since.sameRequest⟩

/-- An `INSERT` into a taken scope fails. -/
theorem Database.Executed.scope_taken {c : Choice} {db db' : Database} {tx tenantId agentId : Uuid}
    {messages : Value} {key : String} {answer : Except SqlxError RunRow}
    (ran : Executed c db (.insertRun tx tenantId agentId messages (some key)) answer db') {run : RunRow}
    (present : run ∈ db.store.runs) (scope : run.scope = some (tenantId, agentId, key)) :
    ∃ error, answer = .error error := by
  cases answer with
  | error error => exact ⟨error, rfl⟩
  | ok row =>
    cases ran with
    | select healthy answered => cases answered
    | insertRun found alive same new unclaimed agent =>
      subst same
      exact absurd scope (unclaimed.1 run (mem_visible.mpr (.inl present)) nofun)

/-- Whenever a run with its tenant, agent and key exists before its `INSERT` is decided, `start_run`
returns a database error. -/
theorem replay_fails (path : Path (started lib config) before middle) (later : Path middle after pool)
    {run : RunRow} (present : run ∈ middle.shared.db.store.runs) {key : String}
    (keyed : run.idempotencyKey = some key) {c : Choice} {tx : Uuid} {messages : Value}
    {answer : Except SqlxError RunRow}
    (decided : .performed i c ⟨.sql (.insertRun tx run.tenantId run.agentId messages (some key)), answer⟩ ∈ after)
    {result : Except AppError Response} (returned : pool.Returned i (.http (.startRun sent agentId body)) result) :
    ∃ error, result = .error (.db error) := by
  obtain ⟨claims, holds⟩ := holds_of_started (path.append later)
  obtain ⟨owned, _, _, returns⟩ := holds.returned returned
  apply returns.conflict
  obtain ⟨earlier, rest, rfl⟩ := List.append_of_mem decided
  obtain ⟨now, next, until_now, step, _⟩ := later.cut
  obtain ⟨other, there, same⟩ := sameRequest_of_path path until_now present
  have scope : other.scope = some (run.tenantId, run.agentId, key) := by
    rw [same.scope, RunRow.scope, keyed, Option.map_some]
  obtain ⟨error, rfl⟩ := (executed (execute_of_step step)).scope_taken there scope
  refine List.any_eq_true.mpr ⟨_, mem_doneBy.mpr ⟨c, List.mem_append_right _ decided⟩, rfl⟩

namespace Scenario

/-- The headers of a request that may be retried. -/
def retriable : HeaderMap :=
  { headers with idempotencyKey := some ("retry-1".toList.map fun c => UInt8.ofNat c.toNat) }

/-- The `INSERT` of a run with this tenant, agent and key. -/
def insertsKeyed (tenantId agentId : Uuid) (key : String) : Performed signature → Bool
  | ⟨.sql (.insertRun _ tenant agent _ idempotencyKey), _⟩ =>
      tenant == tenantId && agent == agentId && idempotencyKey == some key
  | _ => false

/-- A keyed request starts a run. -/
def keyedStart : List (Label (platform permissive ⟨1, 1⟩)) :=
  onboarding ++ [arrive (.createAgent headers ⟨none, "Answer.", [], 5⟩)] ++ moves 2 20 5 ++
  [arrive (.startRun retriable 22 question)] ++ moves 3 30 10

/-- The same request comes again. -/
def retry : List (Label (platform permissive ⟨1, 1⟩)) := [arrive (.startRun retriable 22 question)] ++ moves 5 50 6

/-- A run with this key exists before, and thread 5 inserts into its scope and is refused. -/
def replayed (middle : Pool (platform permissive ⟨1, 1⟩)) (events : List (Event (platform permissive ⟨1, 1⟩)))
    (pool : Pool (platform permissive ⟨1, 1⟩)) : Bool :=
  middle.shared.db.store.runs.any fun run => run.idempotencyKey == some "retry-1" &&
    (doneBy 5 events).any (insertsKeyed run.tenantId run.agentId "retry-1") &&
    refused 5 (.db .inFailedSqlTransaction) pool

/-- The run exists when the retry inserts, and the retry is answered with an error. -/
theorem retried : ∃ before middle after pool, Path (started permissive ⟨1, 1⟩) before middle ∧
    Path middle after pool ∧ ∃ run ∈ middle.shared.db.store.runs, run.idempotencyKey = some "retry-1" ∧
      (∃ c tx messages answer, .performed 5 c
        ⟨.sql (.insertRun tx run.tenantId run.agentId messages (some "retry-1")), answer⟩ ∈ after) ∧
      ∃ headers agentId body,
        pool.Returned 5 (.http (.startRun headers agentId body)) (.error (.db .inFailedSqlTransaction)) := by
  obtain ⟨before, middle, path, checked⟩ := (started permissive ⟨1, 1⟩).exists_path keyedStart
    (fun _ middle => (middle.replay? retry).any fun outcome => replayed middle outcome.1 outcome.2)
    (by decide +kernel)
  obtain ⟨after, pool, later, checked⟩ := middle.exists_path retry (replayed middle) checked
  simp only [replayed, List.any_eq_true, Bool.and_eq_true, beq_iff_eq] at checked
  obtain ⟨run, present, ⟨keyed, what, done, inserts⟩, answered⟩ := checked
  refine ⟨before, middle, after, pool, path, later, run, present, keyed, ?_, of_refused answered⟩
  unfold insertsKeyed at inserts
  split at inserts
  · next tx tenant agent messages key answer =>
    simp only [Bool.and_eq_true, beq_iff_eq] at inserts
    obtain ⟨⟨rfl, rfl⟩, rfl⟩ := inserts
    obtain ⟨c, member⟩ := mem_doneBy.mp done
    exact ⟨c, tx, messages, answer, member⟩
  · cases inserts

end Scenario

/-- A request with the key of a run that exists is answered with a database error. -/
theorem replay_fails_served : ∃ (pool : Pool (platform permissive ⟨1, 1⟩)) (headers : HeaderMap) (agentId : Uuid)
    (body : StartRunRequest) (result : Except AppError Response),
    pool.Returned 5 (.http (.startRun headers agentId body)) result ∧ ∃ error, result = .error (.db error) := by
  obtain ⟨before, middle, after, pool, path, later, run, present, keyed, ⟨c, tx, messages, answer, decided⟩,
    headers, agentId, body, returned⟩ := retried
  exact ⟨pool, headers, agentId, body, _, returned, replay_fails path later present keyed decided returned⟩

/-- A retry is answered with an internal error instead of the run that its key names. -/
theorem replay_not_answered : ∃ before middle after pool, Path (started permissive ⟨1, 1⟩) before middle ∧
    Path middle after pool ∧ ∃ run ∈ middle.shared.db.store.runs, run.idempotencyKey = some "retry-1" ∧
      (∃ c tx messages answer, .performed 5 c
        ⟨.sql (.insertRun tx run.tenantId run.agentId messages (some "retry-1")), answer⟩ ∈ after) ∧
      ∃ headers agentId body result, pool.Returned 5 (.http (.startRun headers agentId body)) result ∧
        ∀ status, result ≠ .ok (.runStarted ⟨run.id, status⟩) := by
  obtain ⟨before, middle, after, pool, path, later, run, present, keyed, decided, headers, agentId, body,
    returned⟩ := retried
  exact ⟨before, middle, after, pool, path, later, run, present, keyed, decided, headers, agentId, body, _, returned,
    by simp⟩

/-! ## Orphans -/

/-- A failing `start_run` leaves every run it has created failed, exactly if neither the `run_created`
event nor the update of the row has failed. -/
theorem orphan_free_iff (path : Path (started lib config) events pool) {fault : AppError}
    (returned : pool.Returned i (.http (.startRun sent agentId body)) (.error fault)) :
    (∀ request, createdRun? (doneBy i events) = some request →
      ∃ run ∈ pool.shared.db.store.runs, run.id = request.id ∧ run.status = .failed) ↔
    (doneBy i events).any leavesPending = false := by
  obtain ⟨claims, holds⟩ := holds_of_started path
  obtain ⟨owned, _, _, returns⟩ := holds.returned returned
  constructor
  · intro failed
    cases made : createdRun? (doneBy i events) with
    | none => exact returns.uncreated made
    | some request =>
      obtain ⟨run, present, id, status⟩ := failed request made
      obtain ⟨_, stage, ⟨other, there, same, sound⟩, ⟨_, pending⟩ | ⟨harmless, _⟩⟩ :=
        returns.created request fault made rfl
      · obtain rfl := holds.valid.unique present there (same.id.trans id.symm)
        cases status.symm.trans (sound.columns.status.trans pending)
      · exact harmless
  · intro harmless request made
    obtain ⟨_, stage, ⟨run, present, same, sound⟩, ⟨harmful, _⟩ | ⟨_, reason, failed, _⟩⟩ :=
      returns.created request fault made rfl
    · cases harmful.symm.trans harmless
    · exact ⟨run, present, same.id, sound.columns.status.trans failed⟩

namespace Scenario

/-- The `run_created` event of a new run cannot be written. -/
def unannounced : List (Label (platform permissive ⟨1, 1⟩)) :=
  onboarding ++ [arrive (.createAgent headers ⟨none, "Answer.", [], 5⟩)] ++ moves 2 20 5 ++
  [arrive (.startRun headers 22 question)] ++ moves 3 30 5 ++ [.act 3 { choice 35 with fail := true }]

/-- No task of a run has been started. -/
def taskless {config : Config} (pool : Pool (platform permissive config)) : Bool :=
  pool.threads.all fun thread => match thread.task with
    | .http _ => true
    | .executeRun .. => false

theorem not_executes {config : Config} {pool : Pool (platform permissive config)}
    (none_started : taskless pool = true) (runId : Uuid) (j : ℕ) : ¬ Executes runId pool j := by
  rintro ⟨thread, tenantId, present, task⟩
  have http := List.all_eq_true.mp none_started thread (List.mem_of_getElem? present)
  rw [task] at http
  cases http

end Scenario

/-- A run that is rejected for lack of permits is marked as failed. -/
theorem orphan_free_served : ∃ events pool, Path (started permissive ⟨0, 1⟩) events pool ∧
    ∃ run ∈ pool.shared.db.store.runs, run.status = .failed := by
  obtain ⟨events, pool, path, checked⟩ := (started permissive ⟨0, 1⟩).exists_path rejection
    (fun events pool => refused 3 .schedulerCapacityExceeded pool && !(doneBy 3 events).any leavesPending &&
      (createdRun? (doneBy 3 events)).isSome) (by decide +kernel)
  simp only [Bool.and_eq_true, Bool.not_eq_true', Option.isSome_iff_exists] at checked
  obtain ⟨⟨answered, harmless⟩, request, made⟩ := checked
  obtain ⟨headers, agentId, body, returned⟩ := of_refused answered
  obtain ⟨run, present, _, failed⟩ := (orphan_free_iff path returned).mpr harmless request made
  exact ⟨events, pool, path, run, present, failed⟩

/-- One failing statement leaves a pending run behind that no task will execute. -/
theorem run_orphaned : ∃ events pool, Path (started permissive ⟨1, 1⟩) events pool ∧
    ∃ headers agentId body fault, pool.Returned 3 (.http (.startRun headers agentId body)) (.error fault) ∧
      (doneBy 3 events).countP failed = 1 ∧ ∃ request, createdRun? (doneBy 3 events) = some request ∧
        (∃ run ∈ pool.shared.db.store.runs, run.id = request.id ∧ run.status = .pending) ∧
        ∀ j, ¬ Executes request.id pool j := by
  obtain ⟨events, pool, path, checked⟩ := (started permissive ⟨1, 1⟩).exists_path unannounced
    (fun events pool => refused 3 (.db .unavailable) pool && (doneBy 3 events).countP failed == 1 && taskless pool &&
      (createdRun? (doneBy 3 events)).any fun request => pool.shared.db.store.runs.any fun run =>
        run.id == request.id && run.status == .pending) (by decide +kernel)
  simp only [Bool.and_eq_true, Option.any_eq_true, List.any_eq_true, beq_iff_eq] at checked
  obtain ⟨⟨⟨answered, once⟩, none_started⟩, request, made, run, present, id, pending⟩ := checked
  obtain ⟨headers, agentId, body, returned⟩ := of_refused answered
  exact ⟨events, pool, path, headers, agentId, body, _, returned, once, request, made, ⟨run, present, id, pending⟩,
    not_executes none_started request.id⟩

end AgentPlatform
