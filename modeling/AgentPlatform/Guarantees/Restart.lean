import AgentPlatform.Guarantees.AtMostOnce
import AgentPlatform.Ownership.Lifetimes

/-! # Stopping and restarting the server

A process may stop at any point of its handlers and tasks, and another one continues with the rows
that it leaves. Every run is still somewhere in its course, but nobody owns the runs of an earlier
process: whatever the later ones do, these runs stay as they were when their process stopped, and
no run is begun twice.
-/

set_option autoImplicit false

namespace AgentPlatform

open Interleaving Relational Database Scenario

variable {lib : Libraries} {config : Config} {s t : Store} {events : List (Event (platform lib config))}
  {first pool next : Pool (platform lib config)} {past : List (Process lib)}

/-! ## Runs of earlier processes -/

theorem sameRun_of_same {runId : Uuid} {before after : World}
    (same : Relation.ReflTransGen (fun before after => (Token.run runId).Same before after) before after) :
    SameRun runId before.db after.db := by
  induction same with
  | refl => exact .refl runId _
  | tail _ step ih => exact ih.trans step

/-- A process does not touch the runs that it finds. -/
theorem sameRun_of_booted (left : Left lib s) (path : Path (booted lib config s) events pool) {run : RunRow}
    (present : run ∈ s.runs) : SameRun run.id { store := s } pool.shared.db := by
  obtain ⟨claims, holds⟩ := @holds_of_booted lib config s [] _ left (.nil _)
  have lives : (Token.run run.id).Lives (booted lib config s).shared := ⟨run, present, rfl⟩
  have unclaimed : (ownership lib config).Unclaimed (booted lib config s) claims (.run run.id) := by
    intro i inside
    cases inside
  obtain ⟨_, _, _, _, same⟩ := holds.path_unclaimed verified path lives unclaimed
  exact sameRun_of_same same

theorem kept_by_booted (left : Left lib s) (path : Path (booted lib config s) events pool) {run : RunRow}
    (present : run ∈ s.runs) : run ∈ pool.shared.db.store.runs ∧
      pool.shared.db.store.traceRows run.tenantId run.id = s.traceRows run.tenantId run.id := by
  have same := sameRun_of_booted left path present
  exact ⟨(same.mem rfl).mpr present, same.traceRows run.tenantId⟩

theorem kept_by_later (left : Left lib s) (serves : Serves lib s past t) {run : RunRow} (present : run ∈ s.runs) :
    run ∈ t.runs ∧ t.traceRows run.tenantId run.id = s.traceRows run.tenantId run.id := by
  induction serves with
  | nothing => exact ⟨present, rfl⟩
  | stopped earlier path ih =>
    obtain ⟨there, same⟩ := ih
    obtain ⟨still, later⟩ := kept_by_booted (left.serves earlier) path there
    exact ⟨still, later.trans same⟩

/-- In every state of every process, each run is at some stage of its course and its events are numbered.
A run that some process has left keeps its row and its events, whatever later processes do. -/
theorem restart_safe (left : Left lib s) (serves : Serves lib s past t)
    (path : Path (booted lib config t) events pool) :
    (∀ run ∈ pool.shared.db.store.runs, ∃ stage, run.Sound lib pool.shared.db.store stage) ∧
    pool.shared.db.store.Numbered ∧
    ∀ run ∈ s.runs, run ∈ pool.shared.db.store.runs ∧
      pool.shared.db.store.traceRows run.tenantId run.id = s.traceRows run.tenantId run.id := by
  have left' := left.serves serves
  refine ⟨(valid_of_booted left' path).runs, numbered_of_path path left'.numbered, fun run present => ?_⟩
  obtain ⟨there, same⟩ := kept_by_later left serves present
  obtain ⟨still, later⟩ := kept_by_booted left' path there
  exact ⟨still, later.trans same⟩

namespace Scenario

/-- The service up to the moment in which the task has started its run. -/
def interrupted : List (Label (platform permissive ⟨1, 1⟩)) :=
  onboarding ++ [arrive (.createTool headers staticTool)] ++ moves 2 10 2 ++
  [arrive (.createAgent headers ⟨none, "Answer.", [11], 5⟩)] ++ moves 3 20 7 ++
  [arrive (.startRun headers 22 question)] ++ moves 4 30 10 ++ moves 5 40 3

/-- The client asks the next process for the run. -/
def askAgain : List (Label (platform permissive ⟨2, 1⟩)) := [arrive (.getRun headers 33)] ++ moves 0 50 2

/-- Request `i` was answered with a run in this status. -/
def answersStatus {config : Config} (i : ℕ) (status : RunStatus) (pool : Pool (platform permissive config)) : Bool :=
  match pool.threads[i]? with
  | some ⟨.http (.getRun _ _), _, .done (.ok (.run response))⟩ => response.status == status
  | _ => false

end Scenario

/-- A run that was running when its process stopped is still running when the next one answers a request for it. -/
theorem restart_safe_interrupted : ∃ (s : Store) (events : List (Event (platform permissive ⟨2, 1⟩)))
    (pool : Pool (platform permissive ⟨2, 1⟩)) (run : RunRow), Left permissive s ∧ run ∈ s.runs ∧
      run.status = .running ∧
      Path (booted permissive ⟨2, 1⟩ s) events pool ∧ answersStatus 0 .running pool = true ∧
        run ∈ pool.shared.db.store.runs := by
  obtain ⟨before, stopped, path, checked⟩ := (started permissive ⟨1, 1⟩).exists_path interrupted
    (fun _ pool => pool.shared.db.store.runs.any (fun run => run.status == .running) &&
      ((booted permissive ⟨2, 1⟩ pool.shared.db.store).replay? askAgain).any fun outcome =>
        answersStatus 0 .running outcome.2) (by decide +kernel)
  obtain ⟨running, asked⟩ := Bool.and_eq_true_iff.mp checked
  obtain ⟨run, present, status⟩ := List.any_eq_true.mp running
  obtain ⟨events, pool, again, answered⟩ := (booted permissive ⟨2, 1⟩ stopped.shared.db.store).exists_path askAgain
    (fun _ pool => answersStatus 0 .running pool) asked
  rw [started_eq_booted] at path
  have left := Left.empty.stopped path
  exact ⟨_, events, pool, run, left, present, by simpa using status, again, answered,
    ((restart_safe left .nothing again).2.2 run present).1⟩

/-! ## Beginning a run -/

/-- `begin_run_execution` starts this run. -/
def begins (runId : Uuid) : Performed signature → Bool
  | ⟨.sql (.beginRunExecution _ id), .ok count⟩ => id == runId && count == 1
  | _ => false

theorem begins_iff {runId : Uuid} {i : ℕ} {c : Choice} {what : Performed signature} :
    begins runId what = true ↔ Begins runId (.performed i c what : Event (platform lib config)) := by
  constructor
  · intro beginning
    unfold begins at beginning
    split at beginning
    · next tenantId id count =>
      obtain ⟨rfl, rfl⟩ : id = runId ∧ count = 1 := by simpa using beginning
      exact ⟨i, c, tenantId, rfl⟩
    · cases beginning
  · rintro ⟨_, _, tenantId, happened⟩
    cases happened
    simp [begins]

/-- The run has been begun so often. -/
def BegunTimes (runId : Uuid) (times : ℕ) (s : Store) : Prop := times = 0 ∨ times = 1 ∧ Begun runId s

theorem BegunTimes.evolve {runId : Uuid} {times : ℕ} (begun : BegunTimes runId times s) (evolves : s.Evolves t) :
    BegunTimes runId times t := by
  rcases begun with none | ⟨once, run, present, id, left⟩
  · exact .inl none
  · obtain ⟨later, found, since⟩ := evolves.runs run present
    exact .inr ⟨once, later, found, since.sameRequest.id.trans id, since.not_pending left⟩

/-- One step begins a run at most once, and only if nobody has begun it before. -/
theorem BegunTimes.step {runId : Uuid} {times : ℕ} {event : Event (platform lib config)}
    (begun : BegunTimes runId times pool.shared.db.store) (valid : Valid lib pool.shared)
    (evolves : pool.shared.db.store.Evolves next.shared.db.store) (step : Step pool event next) :
    BegunTimes runId (times + (performed [event]).countP (begins runId)) next.shared.db.store := by
  cases event with
  | arrived task => exact begun.evolve evolves
  | performed i c what =>
    rw [show performed [Event.performed i c what] = [what] from rfl, List.countP_singleton]
    split
    · next beginning =>
      obtain ⟨⟨run, present, same, pending⟩, now⟩ := Begins.moves (begins_iff.mp beginning) step
      refine .inr ⟨?_, now⟩
      rcases begun with none | ⟨_, other, there, id, left⟩
      · rw [none]
      · rw [valid.unique present there (id.trans same.symm)] at left
        exact absurd pending left
    · exact begun.evolve evolves

theorem BegunTimes.path {runId : Uuid} {times : ℕ} (begun : BegunTimes runId times s) (left : Left lib s)
    (path : Path (booted lib config s) events pool) :
    BegunTimes runId (times + (performed events).countP (begins runId)) pool.shared.db.store := by
  induction path with
  | nil => exact begun
  | @snoc middle last events event path step ih =>
    rw [performed, List.filterMap_append, List.countP_append, ← Nat.add_assoc]
    exact ih.step (valid_of_booted left path) (evolves_of_booted left path step) step

/-- Over any number of processes, each stopped wherever it was, a run is begun at most once, and an
idempotency key of an agent has at most one run. -/
theorem at_most_once_over_restarts (serves : Serves lib {} past s) :
    (∀ runId, (operations past).countP (begins runId) ≤ 1) ∧
    ∀ run ∈ s.runs, ∀ other ∈ s.runs, ∀ scope, run.scope = some scope → other.scope = some scope → other = run := by
  constructor
  · intro runId
    have begun : BegunTimes runId ((operations past).countP (begins runId)) s := by
      induction serves with
      | nothing => exact .inl rfl
      | stopped earlier path ih =>
        rw [operations, List.flatMap_append, List.countP_append, List.flatMap_singleton]
        exact ih.path ⟨_, earlier⟩ path
    rcases begun with none | ⟨once, _⟩ <;> omega
  · intro run present other there scope mine theirs
    have valid : Valid lib (booted lib ⟨0, 0⟩ s).shared := Left.valid ⟨past, serves⟩
    exact valid.wellFormed.runs.scopes.committed.eq there present theirs mine

/-- The process has begun the run when it stops. -/
theorem at_most_once_over_restarts_interrupted : ∃ (past : List (Process permissive)) (s : Store),
      Serves permissive {} past s ∧ (operations past).any (begins 33) = true ∧
      (operations past).countP (begins 33) ≤ 1 := by
  obtain ⟨events, stopped, path, begun⟩ := (started permissive ⟨1, 1⟩).exists_path interrupted
    (fun events _ => (performed events).any (begins 33)) (by decide +kernel)
  rw [started_eq_booted] at path
  have serves := (@Serves.nothing permissive {}).stopped path
  exact ⟨_, _, serves, by simpa [operations] using begun, (at_most_once_over_restarts serves).1 33⟩

end AgentPlatform
