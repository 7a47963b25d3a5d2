import AgentPlatform.Guarantees.Course
import AgentPlatform.Ownership.Usage

/-! # At most once

An idempotency key names one run of an agent, a run is handed to one task, and one task gets past
the compare-and-set from pending to running. No statement makes a run pending again.
-/

set_option autoImplicit false

namespace AgentPlatform

open Interleaving Relational Database Scenario

variable {lib : Libraries} {config : Config} {events : List (Event (platform lib config))}
  {pool next : Pool (platform lib config)} {event : Event (platform lib config)} {runId : Uuid}

/-- `execute_run` is spawned for this run. -/
def Spawns (runId : Uuid) (event : Event (platform lib config)) : Prop :=
  ∃ i c tenantId, event = .performed i c ⟨.spawn tenantId runId, ()⟩

/-- `begin_run_execution` returns true for this run. -/
def Begins (runId : Uuid) (event : Event (platform lib config)) : Prop :=
  ∃ i c tenantId, event = .performed i c (canStart tenantId runId)

/-- The first statement after the `can_start` check is issued for this run. -/
def Enters (runId : Uuid) (event : Event (platform lib config)) : Prop :=
  ∃ i c what, event = .performed i c what ∧ Op.EntersBody what.op runId

/-! ## Idempotency scopes -/

theorem RunRow.scope_eq_some {row : RunRow} {tenantId agentId : Uuid} {key : String} :
    row.scope = some (tenantId, agentId, key) ↔
      row.tenantId = tenantId ∧ row.agentId = agentId ∧ row.idempotencyKey = some key := by
  cases found : row.idempotencyKey <;> simp [scope, found]

/-- An `INSERT` of a run with a generated id waits for, or is refused because of, a run with the same
tenant, agent and key. -/
theorem Database.insertRun_collides {db : Database} {c : Choice} {tx tenantId agentId : Uuid} {messages : Value}
    {key : String} (fresh : ∀ row ∈ everything db.store.runs db.pendingRuns, row.id ≠ c.id)
    (collides : db.insertRun c tx tenantId agentId messages (some key) = none ∨
      ∃ after, db.insertRun c tx tenantId agentId messages (some key) =
        some (.error (.database .uqRunsIdempotency), after)) :
    ∃ row ∈ everything db.store.runs db.pendingRuns, row.tenantId = tenantId ∧ row.agentId = agentId ∧
      row.idempotencyKey = some key := by
  simp only [insertRun, within] at collides
  split at collides
  · simp at collides
  · next transaction found =>
    split at collides
    · simp at collides
    · split_ifs at collides with unfit taken waiting clash blocked orphan
      · simp at collides
      · simp at collides
      · obtain ⟨entry, staged, same⟩ := List.any_eq_true.mp waiting
        exact absurd (beq_iff_eq.mp same)
          (fresh entry.2 (mem_everything.mpr (.inr ⟨entry.1, (mem_without.mp staged).1⟩)))
      · obtain ⟨row, present, same⟩ := List.any_eq_true.mp clash
        refine ⟨row, ?_, RunRow.scope_eq_some.mp (by simpa [RunRow.scope] using same)⟩
        exact mem_everything.mpr ((mem_visible.mp present).imp_right fun staged => ⟨tx, staged⟩)
      · obtain ⟨entry, staged, same⟩ := List.any_eq_true.mp blocked
        refine ⟨entry.2, ?_, RunRow.scope_eq_some.mp (by simpa [RunRow.scope] using same)⟩
        exact mem_everything.mpr (.inr ⟨entry.1, (mem_without.mp staged).1⟩)
      · simp at collides
      · simp at collides

/-! ## Beginning -/

theorem RunStatus.Next.not_pending {before after : RunStatus} (next : before.Next after) : after ≠ .pending := by
  cases next <;> simp

theorem RunRow.Later.not_pending {run later : RunRow} (since : run.Later later) (begun : run.status ≠ .pending) :
    later.status ≠ .pending := by
  rcases since with rfl | ⟨_, next⟩
  · exact begun
  · exact next.not_pending

/-- Some run with this id has left its initial status. -/
def Begun (runId : Uuid) (s : Store) : Prop := ∃ run ∈ s.runs, run.id = runId ∧ run.status ≠ .pending

/-- `begin_run_execution` returns true when it has moved a pending run to running. -/
theorem Begins.moves (begins : Begins runId event) (step : Step pool event next) :
    (∃ run ∈ pool.shared.db.store.runs, run.id = runId ∧ run.status = .pending) ∧
      Begun runId next.shared.db.store := by
  obtain ⟨i, c, tenantId, rfl⟩ := begins
  have ran := executed (execute_of_step step)
  generalize next.shared.db = db, answered : (Except.ok 1 : Except SqlxError ℕ) = answer at ran
  cases ran with
  | beginRunExecution =>
    obtain ⟨run, present, selected⟩ :=
      List.countP_pos_iff.mp (Nat.lt_of_lt_of_eq Nat.one_pos (Except.ok.inj answered))
    have hit := selected
    simp only [Bool.and_eq_true, beq_iff_eq] at hit
    refine ⟨⟨run, present, hit.1.1, hit.2⟩, _, List.mem_map_of_mem present, ?_⟩
    rw [if_pos selected]
    exact ⟨hit.1.1, nofun⟩
  | select healthy found => cases found
  | _ => cases answered

/-- A run that was begun is not pending any more. -/
theorem begun_of_path (path : Path (started lib config) events pool) (member : event ∈ events)
    (begins : Begins runId event) : Begun runId pool.shared.db.store := by
  refine path.since (fun pool => Begun runId pool.shared.db.store)
    (fun _ _ _ _ _ step begins => (Begins.moves begins step).2) ?_ member begins
  rintro before middle event next path step ⟨run, present, id, begun⟩
  obtain ⟨later, found, since⟩ := (evolves_of_started path step).runs run present
  exact ⟨later, found, since.sameRequest.id.trans id, since.not_pending begun⟩

theorem begins_atMostOnce (path : Path (started lib config) events pool) :
    AtMostOnce (Begins runId) events := by
  apply path.atMostOnce
  intro before middle event next path step begins earlier member begun
  obtain ⟨run, present, id, pending⟩ := (Begins.moves begins step).1
  obtain ⟨other, there, same, past⟩ := begun_of_path path member begun
  rw [(valid_of_started path).unique present there (same.trans id.symm)] at past
  exact past pending

/-! ## Spawning -/

/-- Thread `i` is a task of this run. -/
def Executes (runId : Uuid) (pool : Pool (platform lib config)) (i : ℕ) : Prop :=
  ∃ thread tenantId, pool.threads[i]? = some thread ∧ thread.task = .executeRun tenantId runId

theorem Executes.lt {i : ℕ} (executes : Executes runId pool i) : i < pool.threads.length := by
  obtain ⟨thread, _, present, _⟩ := executes
  exact (List.getElem?_eq_some_iff.mp present).1

theorem Executes.step {i : ℕ} (executes : Executes runId pool i) (step : Step pool event next) :
    Executes runId next i := by
  obtain ⟨thread, tenantId, present, task⟩ := executes
  obtain ⟨after, found, same⟩ := step.task present
  exact ⟨after, tenantId, found, same.trans task⟩

/-- Spawning starts a new thread. -/
theorem Spawns.starts (spawns : Spawns runId event) (step : Step pool event next) :
    Executes runId next pool.threads.length := by
  obtain ⟨i, c, tenantId, rfl⟩ := spawns
  generalize happened : (⟨.spawn tenantId runId, ()⟩ : Performed signature) = what at step
  cases step with
  | act present ran =>
    cases happened
    cases ran
    exact ⟨_, tenantId, Pool.advance_spawned rfl, rfl⟩

/-- A run has one task. -/
theorem executes_unique (path : Path (started lib config) events pool) {i j : ℕ}
    (left : Executes runId pool i) (right : Executes runId pool j) : i = j := by
  obtain ⟨claims, holds⟩ := holds_of_started path
  obtain ⟨thread, tenantId, present, task⟩ := left
  obtain ⟨other, owner, there, same⟩ := right
  have mine := (holds.holding i thread present).1
  have theirs := (holds.holding j other there).1
  rw [task] at mine
  rw [same] at theirs
  by_contra different
  exact holds.disjoint i (List.getElem?_eq_some_iff.mp present).1 j (List.getElem?_eq_some_iff.mp there).1 different
    _ mine theirs

theorem spawns_atMostOnce (path : Path (started lib config) events pool) :
    AtMostOnce (Spawns runId) events := by
  apply path.atMostOnce
  intro before middle event next path step spawns earlier member spawned
  obtain ⟨i, executes⟩ := path.since (fun pool => ∃ i, Executes runId pool i)
    (fun _ _ _ _ _ step spawns => ⟨_, Spawns.starts spawns step⟩)
    (fun _ _ _ _ _ step ⟨i, executes⟩ => ⟨i, executes.step step⟩) member spawned
  have inside := executes.lt
  have same := executes_unique (path.snoc step) (executes.step step) (Spawns.starts spawns step)
  omega

/-! ## Entering the body -/

/-- The first statement of the body is the second operation of a task that has begun the run. -/
theorem Enters.begun (path : Path (started lib config) events pool) (step : Step pool event next)
    (enters : Enters runId event) : ∃ i c what tenantId, event = .performed i c what ∧
      doneBy i events = [canStart tenantId runId] := by
  obtain ⟨i, c, what, rfl, enters⟩ := enters
  refine ⟨i, c, what, ?_⟩
  cases step with
  | @act _ task owned op rest _ effect present ran =>
    have follows := (path.follows rfl).1 i _ present
    cases task with
    | http request => exact absurd enters.unhandled (follows.uses (uses_handler request)).2.1
    | executeRun tenantId owner =>
      obtain ⟨rfl, past⟩ := follows_executeRun enters follows
      exact ⟨tenantId, rfl, past⟩

theorem enters_atMostOnce (path : Path (started lib config) events pool) :
    AtMostOnce (Enters runId) events := by
  apply path.atMostOnce
  intro before middle event next path step enters earlier member entered
  obtain ⟨i, c, what, tenantId, rfl, past⟩ := Enters.begun path step enters
  obtain ⟨before, after, rfl⟩ := List.append_of_mem member
  obtain ⟨middle', next', path', step', _⟩ := path.cut
  obtain ⟨j, c', what', tenantId', rfl, past'⟩ := Enters.begun path' step' entered
  -- both threads have begun the run, so they are the same one
  have begun {i : ℕ} {tenantId : Uuid} {events : List (Event (platform lib config))}
      (past : doneBy i events = [canStart tenantId runId]) :
      ∃ c, Event.performed i c (canStart tenantId runId) ∈ events :=
    mem_doneBy.mp (past ▸ List.mem_singleton_self _)
  obtain ⟨first, left⟩ := begun past'
  obtain ⟨second, right⟩ := begun past
  have same := (begins_atMostOnce path).eq (List.mem_append_left _ left) right ⟨_, _, _, rfl⟩ ⟨_, _, _, rfl⟩
  cases same
  rw [doneBy_append, past', doneBy_cons_self] at past
  cases past

/-- An idempotency key names at most one run of an agent, and only a run of the same tenant, agent and
key stands in the way of another. A run is spawned once, begun once and executed once. -/
theorem at_most_once (path : Path (started lib config) events pool) :
    (∀ tenantId agentId key, pool.shared.db.store.runs.countP (fun run =>
      run.tenantId == tenantId && run.agentId == agentId && run.idempotencyKey == some key) ≤ 1) ∧
    (∀ c tx tenantId agentId messages key,
      (∀ row ∈ everything pool.shared.db.store.runs pool.shared.db.pendingRuns, row.id ≠ c.id) →
      (pool.shared.db.insertRun c tx tenantId agentId messages (some key) = none ∨
        ∃ after, pool.shared.db.insertRun c tx tenantId agentId messages (some key) =
          some (.error (.database .uqRunsIdempotency), after)) →
      ∃ row ∈ everything pool.shared.db.store.runs pool.shared.db.pendingRuns, row.tenantId = tenantId ∧
        row.agentId = agentId ∧ row.idempotencyKey = some key) ∧
    ∀ runId, AtMostOnce (Spawns runId) events ∧ AtMostOnce (Begins runId) events ∧
      AtMostOnce (Enters runId) events := by
  refine ⟨fun tenantId agentId key => ?_, ?_, ?_⟩
  · have scopes := (valid_of_started path).wellFormed.runs.scopes.committed
    apply scopes.countP_le_one (tenantId, agentId, key)
    intro row hit
    exact RunRow.scope_eq_some.mpr (by simpa [and_assoc] using hit)
  · exact fun c tx tenantId agentId messages key => Database.insertRun_collides
  · exact fun runId => ⟨spawns_atMostOnce path, begins_atMostOnce path, enters_atMostOnce path⟩

/-- The task of the served run has started it, and nobody has started it again. -/
theorem at_most_once_served : ∃ (events : List (Event (platform permissive ⟨1, 1⟩))) (pool : Pool _),
    Path (started permissive ⟨1, 1⟩) events pool ∧ pool.shared.db.store.runs ≠ [] ∧
      ∀ runId, AtMostOnce (Enters runId) events := by
  obtain ⟨events, pool, path, logged, _⟩ := served
  obtain ⟨run, present, _⟩ := of_logs logged
  exact ⟨events, pool, path, List.ne_nil_of_mem present, fun runId => ((at_most_once path).2.2 runId).2.2⟩

end AgentPlatform
