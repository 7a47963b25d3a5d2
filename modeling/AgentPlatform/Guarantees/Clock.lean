import AgentPlatform.Database.Clock
import AgentPlatform.Guarantees.Polling

/-! # Times in order

If the clock never goes back, not even over a restart, then the times that clients see are in order: those of a
run among each other, those of the events of a run, and those of the run with those of its events.
-/

set_option autoImplicit false

namespace AgentPlatform

open Interleaving Relational Database Scenario

variable {lib : Libraries} {config : Config} {events : List (Event (platform lib config))}
  {pool next : Pool (platform lib config)} {now : Timestamp}

/-- The service has come to this state, with a clock that never went back and now shows `now`. -/
inductive Ticking (lib : Libraries) : Timestamp → {config : Config} → Pool (platform lib config) → Prop
  | start (config : Config) : Ticking lib 0 (started lib config)
  | arrive {now : Timestamp} {config : Config} {pool next : Pool (platform lib config)} {task : Task}
      (earlier : Ticking lib now pool) (step : Step pool (.arrived task) next) : Ticking lib now next
  | act {now : Timestamp} {config : Config} {pool next : Pool (platform lib config)} {i : ℕ} {c : Choice}
      {what : Performed signature} (earlier : Ticking lib now pool) (step : Step pool (.performed i c what) next)
      (passes : now ≤ c.now) : Ticking lib c.now next
  | restart {now : Timestamp} {config : Config} {pool : Pool (platform lib config)} (next : Config)
      (earlier : Ticking lib now pool) : Ticking lib now (booted lib next pool.shared.db.store)

theorem Ticking.reached (ticking : Ticking lib now pool) : Reached pool := by
  induction ticking with
  | start config => exact ⟨{}, [], Left.empty, .nil _⟩
  | arrive earlier step ih => exact ih.path (.single step)
  | act earlier step passes ih => exact ih.path (.single step)
  | restart next earlier ih => exact ih.onward (.restart next (.here _))

/-! ## The times of rows -/

theorem Valid.unfinished {w : World} (valid : Valid lib w) {run : RunRow} (present : run ∈ w.db.store.runs)
    (pending : run.status = .pending) : run.finishedAt = none := by
  obtain ⟨stage, sound⟩ := valid.runs run present
  have finished := sound.columns.finished
  rw [Stage.hasFinished, ← sound.columns.status, pending] at finished
  exact Option.isSome_eq_false_iff.mp finished |> Option.isNone_iff_eq_none.mp

theorem Ticking.timed (ticking : Ticking lib now pool) : pool.shared.db.Timed now := by
  induction ticking with
  | start config => exact .empty
  | arrive earlier step ih =>
    cases step with
    | arrive accepted => exact ih
  | @act now config pool next i c what earlier step passes ih =>
    have before := ih.mono passes
    rcases database_of_step step with same | ⟨tx, rolled⟩ | ⟨j, c', statement, answer, happened, executes⟩
    · rw [same]
      exact before
    · rw [rolled]
      exact before.rollback tx
    · cases happened
      exact before.executed (executed executes) fun run present pending =>
        earlier.reached.valid.unfinished present pending
  | restart next earlier ih => exact ih.reconnect

/-! ## The times of events -/

/-- The time of an event of the run, compared with those of the run. -/
structure TraceRow.Dated (event : TraceRow) (run : RunRow) : Prop where
  created : run.createdAt ≤ event.createdAt
  started : event.type ≠ .runCreated → ∀ start, run.startedAt = some start → start ≤ event.createdAt
  finished : event.type = .runEnd → ∀ finish, run.finishedAt = some finish → finish ≤ event.createdAt

/-- Only the creation of a pending run has been logged. -/
theorem type_of_pending {stage : Stage} {type : EventType} {payload : Value} (member : (type, payload) ∈ stage.events)
    (pending : stage.status = .pending) : type = .runCreated := by
  cases stage with
  | created => cases member
  | announced => exact congrArg Prod.fst (List.mem_singleton.mp member)
  | settled rounds decision verdict | ended rounds decision verdict => cases verdict <;> cases pending
  | _ => cases pending

theorem not_runEnd_of_running {stage : Stage} {type : EventType} {payload : Value}
    (member : (type, payload) ∈ stage.events) (running : stage.status = .running) : type ≠ .runEnd := by
  rintro rfl
  rcases Stage.of_mem_runEnd member with ⟨answer, success, _⟩ | ⟨reason, failed, _⟩
  · cases running.symm.trans success
  · cases running.symm.trans failed

theorem hasStarted_of_running {stage : Stage} (running : stage.status = .running) : stage.hasStarted = true := by
  cases stage <;> first | rfl | cases running

/-- The events of a run that moves on are dated as before: if it has just been started then none of them is later than
its creation, and if it has just been finished then its end is not logged. -/
theorem TraceRow.Dated.forward {w : World} (valid : Valid lib w) {event : TraceRow} {run after : RunRow}
    (dated : event.Dated run) (logged : event ∈ w.db.store.runTraces) (present : run ∈ w.db.store.runs)
    (tenantId : event.tenantId = run.tenantId) (runId : event.runId = run.id) (later : run.Later after)
    (forward : run.Forward after) : event.Dated after := by
  obtain ⟨stage, sound⟩ := valid.runs run present
  have member := sound.event_mem logged tenantId runId
  have status := sound.columns.status
  rcases later with rfl | ⟨same, moved⟩
  · exact dated
  refine ⟨same.createdAt ▸ dated.created, fun type start started => ?_, fun type => ?_⟩
  · cases before : run.status with
    | pending => exact absurd (type_of_pending member (status.symm.trans before)) type
    | running =>
      have hasStarted := sound.columns.started.trans (hasStarted_of_running (status.symm.trans before))
      rw [forward.startedAt (Option.isSome_iff_ne_none.mp hasStarted)] at started
      exact dated.started type start started
    | success | failed => exact absurd moved.not_terminal (by rw [before]; rintro ⟨⟩)
  · cases before : run.status with
    | pending =>
      rw [type_of_pending member (status.symm.trans before)] at type
      cases type
    | running => exact absurd type (not_runEnd_of_running member (status.symm.trans before))
    | success | failed => exact absurd moved.not_terminal (by rw [before]; rintro ⟨⟩)

/-- Every event is dated against its run. -/
def Store.Dated (s : Store) : Prop := ∀ event ∈ s.runTraces, ∀ run ∈ s.runs, event.runId = run.id → event.Dated run

theorem dated_of_step {event : Event (platform lib config)} (reached : Reached pool) (step : Step pool event next)
    (dated : pool.shared.db.store.Dated) (timed : next.shared.db.Timed now)
    (passes : ∀ i c what, event = .performed i c what → now = c.now) : next.shared.db.store.Dated := by
  rcases store_of_step step with same | ⟨i, c, statement, answer, happened, ran⟩
  · rw [same]
    exact dated
  intro trace logged run present runId
  rcases event_executed ran logged with old | new
  · obtain ⟨s, events, left, path⟩ := reached
    have valid : Valid lib pool.shared := valid_of_booted left path
    have valid' : Valid lib next.shared := valid_of_booted left (path.snoc step)
    obtain ⟨before, there, tenantId, id⟩ := valid.wellFormed.traces trace old
    obtain ⟨after, last, later⟩ := (evolves_of_booted left path step).runs before there
    obtain ⟨other, last', forward⟩ := forward_of_step left path step there
    obtain rfl := valid'.unique present last (later.sameRequest.id.trans (id.trans runId))
    obtain rfl := valid'.unique present last' (forward.sameRequest.id.trans (id.trans runId))
    exact (dated trace old before there id.symm).forward valid old there tenantId.symm id.symm later forward
  · have at_now : trace.createdAt = now := new.trans (passes i c _ happened).symm
    have known := timed.runs run (mem_everything.mpr (.inl present))
    rw [← at_now] at known
    exact ⟨known.created, fun _ start started => (known.started start started).2, fun _ finish finished =>
      (known.finished finish finished).2.1⟩

theorem Ticking.dated (ticking : Ticking lib now pool) : pool.shared.db.store.Dated := by
  induction ticking with
  | start config =>
    rintro event ⟨⟩
  | arrive earlier step ih =>
    cases step with
    | arrive accepted => exact ih
  | act earlier step passes ih =>
    refine dated_of_step earlier.reached step ih (earlier.act step passes).timed ?_
    rintro i c what ⟨⟩
    rfl
  | restart next earlier ih => exact ih

/-- Events of one run with higher numbers were not created earlier. -/
theorem Ticking.ordered (ticking : Ticking lib now pool) {earlier later : TraceRow}
    (first : earlier ∈ pool.shared.db.store.runTraces) (second : later ∈ pool.shared.db.store.runTraces)
    (tenantId : earlier.tenantId = later.tenantId) (runId : earlier.runId = later.runId)
    (seq : earlier.seq < later.seq) : earlier.createdAt ≤ later.createdAt := by
  obtain ⟨s, events, left, path⟩ := ticking.reached
  have numbered := numbered_of_path path left.numbered
  have mine {row : TraceRow} (present : row ∈ pool.shared.db.store.runTraces) (owner : row.tenantId = later.tenantId)
      (run : row.runId = later.runId) : row ∈ pool.shared.db.store.traceRows later.tenantId later.runId :=
    List.mem_filter.mpr ⟨present, by simp [owner, run]⟩
  obtain ⟨j, there⟩ := List.getElem?_of_mem (mine first tenantId runId)
  obtain ⟨k, found⟩ := List.getElem?_of_mem (mine second rfl rfl)
  have before : j < k := by
    rw [numbered _ _ j earlier there, numbered _ _ k later found] at seq
    omega
  have ordered : (pool.shared.db.store.traceRows later.tenantId later.runId).Pairwise (·.createdAt ≤ ·.createdAt) :=
    List.Pairwise.sublist List.filter_sublist ticking.timed.ordered
  obtain ⟨inside, is_earlier⟩ := List.getElem?_eq_some_iff.mp there
  obtain ⟨inside', is_later⟩ := List.getElem?_eq_some_iff.mp found
  have times := List.pairwise_iff_getElem.mp ordered j k inside inside' before
  rwa [is_earlier, is_later] at times

/-- With a clock that never goes back, however often the server is restarted, no time is from the future, a run is
created before it is started and started before it is finished, the events are stored in the order of their times and
those of a run are numbered in this order, and a run is not started after its first event but its creation, nor
finished after the event of its end. -/
theorem times_in_order (ticking : Ticking lib now pool) : (∀ run ∈ pool.shared.db.store.runs, run.Timed now) ∧
    (∀ event ∈ pool.shared.db.store.runTraces, event.createdAt ≤ now) ∧
    (pool.shared.db.store.runTraces.Pairwise fun earlier later => earlier.createdAt ≤ later.createdAt) ∧
    (∀ earlier ∈ pool.shared.db.store.runTraces, ∀ later ∈ pool.shared.db.store.runTraces,
      earlier.tenantId = later.tenantId → earlier.runId = later.runId → earlier.seq < later.seq →
        earlier.createdAt ≤ later.createdAt) ∧
    ∀ event ∈ pool.shared.db.store.runTraces, ∀ run ∈ pool.shared.db.store.runs,
      event.runId = run.id → event.Dated run :=
  ⟨fun run present => ticking.timed.runs run (mem_everything.mpr (.inl present)), ticking.timed.events,
    ticking.timed.ordered, fun _ first _ second => ticking.ordered first second, ticking.dated⟩

/-- What the clock shows at the operations. -/
def readings (events : List (Event (platform lib config))) : List Timestamp :=
  events.filterMap fun
    | .arrived _ => none
    | .performed _ c _ => some c.now

theorem Ticking.path {last : Pool (platform lib config)} (ticking : Ticking lib now pool)
    (path : Path pool events last) (ascending : (now :: readings events).Pairwise (· ≤ ·)) :
    ∃ later ∈ now :: readings events, Ticking lib later last := by
  induction path with
  | nil => exact ⟨now, List.mem_cons_self .., ticking⟩
  | @snoc middle last events event path step ih =>
    rw [readings, List.filterMap_append, ← List.cons_append] at ascending ⊢
    obtain ⟨before, _, across⟩ := List.pairwise_append.mp ascending
    obtain ⟨later, member, ticking⟩ := ih before
    cases event with
    | arrived task => exact ⟨later, List.mem_append_left _ member, ticking.arrive step⟩
    | performed i c what =>
      have passes : later ≤ c.now := across later member c.now (List.mem_singleton_self _)
      exact ⟨c.now, List.mem_append_right _ (List.mem_singleton_self _), ticking.act step passes⟩

/-- The finished run of the service. -/
theorem times_in_order_service : ∃ (now : Timestamp) (pool : Pool (platform permissive ⟨1, 1⟩)) (run : RunRow)
    (start finish : Timestamp),
    Ticking permissive now pool ∧ run ∈ pool.shared.db.store.runs ∧ run.startedAt = some start ∧
      run.finishedAt = some finish ∧ run.createdAt ≤ start ∧ start ≤ finish ∧ finish ≤ now := by
  obtain ⟨events, pool, path, checked⟩ := (started permissive ⟨1, 1⟩).exists_path service
    (fun events pool => decide ((0 :: readings events).Pairwise (· ≤ ·)) &&
      pool.shared.db.store.runs.any fun run => run.startedAt.isSome && run.finishedAt.isSome) (by decide +kernel)
  obtain ⟨ascending, found⟩ := Bool.and_eq_true_iff.mp checked
  obtain ⟨now, _, ticking⟩ := (Ticking.start ⟨1, 1⟩).path path (of_decide_eq_true ascending)
  obtain ⟨run, present, both⟩ := List.any_eq_true.mp found
  obtain ⟨begun, ended⟩ := Bool.and_eq_true_iff.mp both
  obtain ⟨start, started⟩ := Option.isSome_iff_exists.mp begun
  obtain ⟨finish, finished⟩ := Option.isSome_iff_exists.mp ended
  have timed := (times_in_order ticking).1 run present
  obtain ⟨_, known, order⟩ := timed.finished finish finished
  exact ⟨now, pool, run, start, finish, ticking, present, started, finished,
    (timed.started start started).1, order start started, known⟩

end AgentPlatform
