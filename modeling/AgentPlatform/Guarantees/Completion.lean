import AgentPlatform.Guarantees.Course
import AgentPlatform.Ownership.Usage

/-! # How tasks leave their runs

A task that has begun its run and loses no statement leaves the run finished, unless it leaves the
loop through one of the two `?` that do not finalise the run.
-/

set_option autoImplicit false

namespace AgentPlatform

open Interleaving Relational Database Scenario

variable {lib : Libraries} {config : Config} {events : List (Event (platform lib config))}
  {pool : Pool (platform lib config)}

/-- The run is over: the row says how it ended, and the trace that `get_trace` returns ends with it. -/
structure RunRow.Finished (s : Store) (run : RunRow) : Prop where
  status : run.status = .success ∨ run.status = .failed
  finishedAt : run.finishedAt.isSome = true
  closed : ∃ trace, ((s.traceRows run.tenantId run.id).insertionSort (·.seq ≤ ·.seq)).getLast? = some trace ∧
    trace.type = .runEnd

theorem RunRow.Sound.finished {s : Store} {run : RunRow} {rounds : List Round} {decision : Option LlmDecision}
    {verdict : Verdict} (sound : run.Sound lib s (.ended rounds decision verdict)) (numbered : s.Numbered) :
    run.Finished s where
  status := by
    rw [sound.columns.status]
    cases verdict
    · exact .inl rfl
    · exact .inr rfl
  finishedAt := by
    rw [sound.columns.finished]
    cases verdict <;> rfl
  closed := by
    have last := congrArg List.getLast? sound.events
    rw [Stage.events, List.getLast?_concat, List.getLast?_map] at last
    obtain ⟨trace, found, event⟩ := Option.map_eq_some_iff.mp last
    rw [numbered.sorted]
    exact ⟨trace, found, congrArg Prod.fst event⟩

theorem Abandons.congr {request run : RunRow} {past : List (Performed signature)}
    (same : request.SameRequest run) : Abandons lib request past ↔ Abandons lib run past := by
  simp only [Abandons, RunRow.ForcesInvalidCall, same.inputMessages]

/-- A first tool with a static response is enough not to abandon the run. -/
theorem not_abandons {request : RunRow} {past : List (Performed signature)} {tool : ToolRow} {rest : List ToolRow}
    {response : Value} (listed : past.findSome? listedTools? = some (tool :: rest))
    (responds : executeMockHandler (toolFromRow lib tool).mockHandler = .ok response) :
    ¬ Abandons lib request past := by
  rintro ⟨_, none_left | ⟨other, rest', listed', _, _, silent⟩⟩
  · cases listed.symm.trans none_left
  · cases listed.symm.trans listed'
    exact silent response responds

/-- A task that has begun its run and in which no statement has failed leaves the run finished exactly
if it does not abandon it. -/
theorem run_finished_iff (path : Path (started lib config) events pool) {i : ℕ} {tenantId runId : Uuid}
    {result : Except AppError Response} (returned : pool.Returned i (.executeRun tenantId runId) result)
    (began : (doneBy i events).any beganRun = true) (succeeded : (doneBy i events).any failed = false) :
    ∃ run ∈ pool.shared.db.store.runs, run.id = runId ∧ run.tenantId = tenantId ∧
      (run.Finished pool.shared.db.store ↔ ¬ Abandons lib run (doneBy i events)) := by
  obtain ⟨claims, holds⟩ := holds_of_started path
  obtain ⟨owned, _, _, _, request, stage, id, owner, ⟨run, present, same, sound⟩, concluded⟩ :=
    holds.returned returned
  refine ⟨run, present, same.id.trans id, same.tenantId.trans owner, ?_⟩
  rw [← Abandons.congr same]
  rcases concluded began succeeded with ⟨abandons, running⟩ | ⟨finishes, rounds, decision, verdict, rfl⟩
  · have unfinished : ¬ run.Finished pool.shared.db.store := by
      rintro ⟨success | failed, _, _⟩
      · cases success.symm.trans (sound.columns.status.trans running)
      · cases failed.symm.trans (sound.columns.status.trans running)
    exact iff_of_false unfinished (not_not_intro abandons)
  · exact iff_of_true (sound.finished (numbered_of_started path)) finishes

/-! ## Tasks that lose no statement -/

/-- The run of a task that has not done anything yet has only been announced. -/
theorem announced_of_idle (path : Path (started lib config) events pool) {i : ℕ} {tenantId runId : Uuid}
    {thread : Thread (platform lib config)} (present : pool.threads[i]? = some thread)
    (task : thread.task = .executeRun tenantId runId) (idle : doneBy i events = []) :
    ∃ request : RunRow, request.id = runId ∧ request.tenantId = tenantId ∧
      InStage lib pool.shared request .announced := by
  induction path generalizing thread with
  | nil => simp [started] at present
  | @snoc middle last events event path step ih =>
    rw [doneBy_append] at idle
    obtain ⟨earlier, now⟩ := List.append_eq_nil_iff.mp idle
    obtain ⟨claims, holds⟩ := holds_of_started path
    cases step with
    | @arrive arriving accepted =>
      rw [List.getElem?_append] at present
      split at present
      · exact ih present task earlier
      · obtain rfl := List.mem_singleton.mp (List.mem_of_getElem? present)
        cases arriving with
        | http request => cases task
        | executeRun owner run => cases accepted
    | @act j mover owned op rest c effect there ran =>
      have inside := (List.getElem?_eq_some_iff.mp there).1
      rcases Pool.advance_cases inside present with ⟨rfl, rfl⟩ | ⟨other, found⟩ | ⟨rfl, started, spawned, rfl⟩
      · rw [doneBy_performed, if_pos rfl] at now
        cases now
      · obtain ⟨request, rfl, rfl, announced⟩ := ih found task earlier
        have foreign := holds.interferes (List.getElem?_eq_some_iff.mp found).1 other there ran
        have owner := (holds.holding i thread found).1
        rw [task] at owner
        exact ⟨request, rfl, rfl,
          persistent_inStage owner foreign.before foreign.after foreign.evolves foreign.same announced⟩
      · obtain ⟨kept, permits⟩ := holds.permits there ran
        obtain ⟨given, enters, _⟩ := permits.spawned started spawned
        obtain ⟨task', permits'⟩ := started
        obtain rfl : task' = .executeRun tenantId runId := task
        exact enters.2.2

/-- The first statement of a task begins its run. -/
theorem count_of_begin (path : Path (started lib config) events pool) {i : ℕ} {tenantId runId : Uuid}
    {thread : Thread (platform lib config)} (present : pool.threads[i]? = some thread)
    (task : thread.task = .executeRun tenantId runId) (idle : doneBy i events = []) {c : Choice} {count : ℕ}
    {next : Database} (ran : pool.shared.db.execute c (.beginRunExecution tenantId runId) = some (.ok count, next)) :
    count = 1 := by
  obtain ⟨request, rfl, rfl, run, member, asked, sound⟩ := announced_of_idle path present task idle
  have valid : Valid lib pool.shared := valid_of_started path
  have once : pool.shared.db.store.runs.countP
      (fun row => row.id == request.id && row.tenantId == request.tenantId && row.status == .pending) = 1 := by
    apply valid.wellFormed.runs.ids.committed.countP_eq_one member
    intro other there
    simp only [Bool.and_eq_true, beq_iff_eq]
    refine ⟨fun hit => hit.1.1.trans asked.id.symm, fun same => ?_⟩
    obtain rfl := valid.unique member there same
    exact ⟨⟨asked.id, asked.tenantId⟩, sound.columns.status⟩
  simp only [execute] at ran
  split at ran
  · cases ran
  · cases ran
    exact once

/-- The first statement of a task begins its run, unless it fails. -/
theorem begun_of_succeeded (path : Path (started lib config) events pool) {i : ℕ} {tenantId runId : Uuid}
    {result : Except AppError Response} (returned : pool.Returned i (.executeRun tenantId runId) result)
    (succeeded : (doneBy i events).any failed = false) : (doneBy i events).any beganRun = true := by
  obtain ⟨owned, present⟩ := returned
  have follows := (path.follows rfl).1 i _ present
  obtain ⟨begun, begins, _, _⟩ : ∃ next, executeRun lib tenantId runId = _ ∧ _ := executeRun_eq_call
  change (closing tenantId (executeRun lib tenantId runId)).Follows _ _ at follows
  rw [begins] at follows
  rcases follows.cases_call with ⟨_, absurd⟩ | ⟨answer, later, done, _⟩
  · cases absurd
  rw [done] at succeeded ⊢
  cases answer with
  | error fault => simp [failed] at succeeded
  | ok count =>
    have done : doneBy i events = [] ++ ⟨.sql (.beginRunExecution tenantId runId), .ok count⟩ :: later := done
    obtain ⟨before, c, after, rfl, idle, _⟩ := exists_cut_of_doneBy done
    obtain ⟨middle, next, earlier, step, rest⟩ := path.cut
    obtain ⟨thread, there, task⟩ := step.mover rest present
    simp [beganRun, count_of_begin earlier there task idle (execute_of_step step)]

/-- A task executes a run of its tenant. -/
theorem tenant_of_returned (path : Path (started lib config) events pool) {i : ℕ} {tenantId runId : Uuid}
    {result : Except AppError Response} (returned : pool.Returned i (.executeRun tenantId runId) result)
    {run : RunRow} (present : run ∈ pool.shared.db.store.runs) (id : run.id = runId) : run.tenantId = tenantId := by
  obtain ⟨claims, holds⟩ := holds_of_started path
  obtain ⟨_, _, _, _, request, _, same, tenant, ⟨other, there, asked, _⟩, _⟩ := holds.returned returned
  obtain rfl := holds.valid.unique present there ((asked.id.trans same).trans id.symm)
  exact asked.tenantId.trans tenant

/-- A task without a failed statement ends its run, or abandons it. -/
theorem ended_of_succeeded (path : Path (started lib config) events pool) {i : ℕ} {tenantId runId : Uuid}
    {result : Except AppError Response} (returned : pool.Returned i (.executeRun tenantId runId) result)
    (succeeded : (doneBy i events).any failed = false) {run : RunRow} (present : run ∈ pool.shared.db.store.runs)
    (id : run.id = runId) (finishes : ¬ Abandons lib run (doneBy i events)) :
    ∃ rounds decision verdict, run.Sound lib pool.shared.db.store (.ended rounds decision verdict) := by
  obtain ⟨claims, holds⟩ := holds_of_started path
  obtain ⟨owned, _, _, _, request, stage, same, _, ⟨other, there, asked, sound⟩, concluded⟩ := holds.returned returned
  obtain rfl := holds.valid.unique present there (asked.id.trans (same.trans id.symm))
  rw [← Abandons.congr asked] at finishes
  rcases concluded
    (begun_of_succeeded path returned succeeded) succeeded with ⟨abandons, _⟩ | ⟨_, rounds, decision, verdict, rfl⟩
  · exact absurd abandons finishes
  · exact ⟨rounds, decision, verdict, sound⟩

namespace Scenario

/-- Thread `i` has executed this run to its end, and no statement of it has failed. -/
def completed (i : ℕ) (runId : Uuid) (events : List (Event (platform permissive config)))
    (pool : Pool (platform permissive config)) : Bool :=
  (doneBy i events).any beganRun && !(doneBy i events).any failed &&
    match pool.threads[i]? with
    | some ⟨.executeRun _ executed, _, .done _⟩ => executed == runId
    | _ => false

theorem of_completed {i : ℕ} {runId : Uuid} {events : List (Event (platform permissive config))}
    {pool : Pool (platform permissive config)} (done : completed i runId events pool = true) :
    (∃ tenantId result, pool.Returned i (.executeRun tenantId runId) result) ∧
      (doneBy i events).any beganRun = true ∧ (doneBy i events).any failed = false := by
  simp only [completed, Bool.and_eq_true, Bool.not_eq_true'] at done
  obtain ⟨⟨began, succeeded⟩, done⟩ := done
  refine ⟨?_, began, succeeded⟩
  split at done
  · next tenantId executed owned result present =>
    rw [beq_iff_eq] at done
    exact ⟨tenantId, result, owned, done ▸ present⟩
  · cases done

/-- A run of an agent without tools. -/
def toolless : List (Label (platform permissive config)) :=
  onboarding ++ [arrive (.createAgent headers ⟨none, "Answer.", [], 5⟩)] ++ moves 2 20 5 ++
  [arrive (.startRun headers 22 question)] ++ moves 3 30 10 ++ moves 4 40 8

end Scenario

/-- The task of the served run finishes it. -/
theorem run_finished_served : ∃ events pool, Path (started permissive ⟨1, 1⟩) events pool ∧
    ∃ run ∈ pool.shared.db.store.runs, run.Finished pool.shared.db.store := by
  obtain ⟨events, pool, path, checked⟩ := (started permissive ⟨1, 1⟩).exists_path service
    (fun events pool => completed 5 33 events pool &&
      ((doneBy 5 events).findSome? listedTools?).any fun tools => tools.head?.any fun tool =>
        (executeMockHandler (toolFromRow permissive tool).mockHandler).toBool) (by decide +kernel)
  simp only [Bool.and_eq_true, Option.any_eq_true] at checked
  obtain ⟨done, tools, listed, tool, first, responds⟩ := checked
  obtain ⟨⟨tenantId, result, returned⟩, began, succeeded⟩ := of_completed done
  obtain ⟨rest, rfl⟩ := List.head?_eq_some_iff.mp first
  obtain ⟨run, present, _, _, finished⟩ := run_finished_iff path returned began succeeded
  cases called : executeMockHandler (toolFromRow permissive tool).mockHandler with
  | error fault => simp [called, Except.toBool] at responds
  | ok response => exact ⟨events, pool, path, run, present, finished.mpr (not_abandons listed called)⟩

/-- The run of an agent without tools stays running although its task has returned and every
statement has succeeded. -/
theorem run_stays_running : ∃ events pool, Path (started permissive ⟨1, 1⟩) events pool ∧
    ∃ tenantId runId result, pool.Returned 4 (.executeRun tenantId runId) result ∧
      (doneBy 4 events).any beganRun = true ∧ (doneBy 4 events).any failed = false ∧
      ∃ run ∈ pool.shared.db.store.runs, run.id = runId ∧ run.status = .running ∧
        ¬ run.Finished pool.shared.db.store := by
  obtain ⟨events, pool, path, checked⟩ := (started permissive ⟨1, 1⟩).exists_path toolless
    (fun events pool => completed 4 33 events pool &&
      pool.shared.db.store.runs.any fun run => run.id == 33 && run.status == .running) (by decide +kernel)
  simp only [Bool.and_eq_true, List.any_eq_true, beq_iff_eq] at checked
  obtain ⟨done, run, present, id, running⟩ := checked
  obtain ⟨⟨tenantId, result, returned⟩, began, succeeded⟩ := of_completed done
  refine ⟨events, pool, path, tenantId, 33, result, returned, began, succeeded, run, present, id, running, ?_⟩
  rintro ⟨success | failed, _, _⟩
  · cases success.symm.trans running
  · cases failed.symm.trans running

end AgentPlatform
