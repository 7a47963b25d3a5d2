import AgentPlatform.Guarantees.Deletion
import AgentPlatform.Guarantees.Completion
import AgentPlatform.Ownership.Expected
import AgentPlatform.Ownership.Readings

/-! # Independent runs

Every answer that a task gets is determined by the rows at its start, whatever other tasks do in the meantime. So
all interleavings of the same tasks have the same outcome, and each task ends as if it had run alone.
-/

set_option autoImplicit false

namespace AgentPlatform

open Interleaving Relational Database Scenario

variable {lib : Libraries} {config : Config} {before more : List (Event (platform lib config))}
  {event : Event (platform lib config)} {pool middle last next : Pool (platform lib config)} {tenantId runId : Uuid}
  {agent : AgentRow} {i : ℕ} {request : RunRow} {tie : Op → Uuid → ℕ}

/-! ## What stays the same -/

/-- A tool is created or deleted. -/
def Op.ChangesTools : Op → Prop
  | .sql (.createTool ..) | .sql (.deleteTool ..) => True
  | _ => False

def ChangesTools (event : Event (platform lib config)) : Prop :=
  ∃ i c what, event = .performed i c what ∧ what.op.ChangesTools

theorem tools_of_path (path : Path pool more last) (quiet : ∀ event ∈ more, ¬ ChangesTools event) :
    last.shared.db.store.tools = pool.shared.db.store.tools := by
  induction path with
  | nil => rfl
  | @snoc middle last events event path step ih =>
    refine Eq.trans ?_ (ih fun event member => quiet event (List.mem_append_left _ member))
    rcases store_of_step step with same | ⟨i, c, statement, answer, rfl, ran⟩
    · rw [same]
    · have fixed : ¬ (Op.sql statement).ChangesTools := fun changes =>
        quiet _ (List.mem_append_right _ (List.mem_singleton_self _)) ⟨i, c, _, rfl, changes⟩
      rcases tools_executed ran with same | ⟨_, _, _, _, rfl, _⟩ | ⟨_, _, happened, _⟩
      · exact same
      · exact absurd True.intro fixed
      · cases happened
        exact absurd True.intro fixed

/-- While no tool is created or deleted, agents that are there stay as they are. -/
theorem sameReads_of_path (path : Path (started lib config) before pool) (later : Path pool more last)
    (quiet : ∀ event ∈ more, ¬ ChangesTools event) (present : agent ∈ pool.shared.db.store.agents)
    (owner : agent.tenantId = tenantId) : pool.shared.db.store.SameReads tenantId agent last.shared.db.store where
  tools := tools_of_path later quiet
  bindings := bindings_of_path path later present tenantId
  agent := by
    have valid : Valid lib pool.shared := valid_of_started path
    have active := valid.wellFormed.agents.active agent (mem_everything.mpr (.inl present))
    have grown : Lasting fun s => pool.shared.db.store.agents <+: s.agents :=
      fun _ _ evolves first => first.trans evolves.agents
    obtain ⟨rest, agents⟩ := grown.of_path path later (List.prefix_refl _)
    have found : (pool.shared.db.store.findAgent tenantId agent.id).isSome = true :=
      List.find?_isSome.mpr ⟨agent, present, by simp [owner, active]⟩
    obtain ⟨row, found⟩ := Option.isSome_iff_exists.mp found
    rw [found]
    rw [Store.findAgent] at found ⊢
    rw [← agents, List.find?_append, found]
    rfl

/-! ## Every answer is as expected -/

/-- A task that has not begun in this state: its run with what was requested, and the agent of the run. -/
structure Waits (i : ℕ) (before : List (Event (platform lib config))) (pool : Pool (platform lib config))
    (request : RunRow) (agent : AgentRow) : Prop where
  thread : ∃ thread : Thread (platform lib config), pool.threads[i]? = some thread ∧
    thread.task = .executeRun request.tenantId request.id
  idle : doneBy i before = []
  asked : ∃ run ∈ pool.shared.db.store.runs, request.SameRequest run
  found : pool.shared.db.store.findAgent request.tenantId request.agentId = some agent

/-- A statement of the task that does not fail has the answer that the first state lets expect. -/
theorem Waits.expected (waits : Waits i before pool request agent) (path : Path (started lib config) before pool)
    (later : Path pool more middle) (quiet : ∀ event ∈ more, ¬ ChangesTools event) {c : Choice}
    {what : Performed signature} (step : Step middle (.performed i c what) next) (alive : failed what = false)
    (ordered : c.tie = tie what.op) (serves : what.op.Serves request.tenantId request.id agent.id) :
    Expected pool.shared.db.store request tie what.op what.answer := by
  obtain ⟨present, owner, _⟩ := Store.findAgent_some waits.found
  obtain ⟨thread, there, task⟩ := waits.thread
  have earlier := path.append later
  obtain ⟨op, answer⟩ := what
  cases op with
  | dropPermit semaphore => trivial
  | sql statement =>
    cases answer with
    | error fault => cases alive
    | ok row =>
      have ran := executed (execute_of_step step)
      have reads := sameReads_of_path path later quiet present owner
      have selects {answer : statement.Row} (selected : middle.shared.db.store.select c statement = some answer) :
          row = answer :=
        (answer_of_select ran selected).1
      cases statement with
      | getRun tenantId runId =>
        obtain ⟨rfl, rfl⟩ := serves
        obtain ⟨run, member, asked⟩ := (lasting_request request).of_path path later waits.asked
        have valid : Valid lib middle.shared := valid_of_started earlier
        obtain ⟨run, found, _, asked⟩ := valid.findRun ⟨run, member, asked⟩
        exact ⟨run, congrArg Except.ok (selects (congrArg some found)), asked⟩
      | beginRunExecution tenantId runId =>
        obtain ⟨rfl, rfl⟩ := serves
        obtain ⟨moved, still, same⟩ := later.task there
        obtain ⟨final, stands, kept⟩ := step.task still
        have along : (Task.body lib final.task).Along (Justified lib request.tenantId request.id)
            (fun _ _ => True) [] := by
          rw [kept.trans (same.trans task)]
          exact along_task
        have first : doneBy i (before ++ more) = [] := (earlier.snoc step).along_performed rfl stands along
        exact congrArg Except.ok (count_of_begin earlier still (same.trans task) first (execute_of_step step))
      | finalizeRun tenantId runId status finalAnswer errorReason =>
        obtain ⟨_, _, _, legal⟩ := lawful_of_started earlier step
        exact congrArg Except.ok (legal.affected row rfl)
      | appendEvent tenantId runId eventType payload => rfl
      | getAgent | getTool | getAgentToolIds | listAgentTools | findUnboundActiveTool =>
        have same := reads.select (c := c) serves (by rintro _ _ ⟨⟩)
        exact ⟨c, row, ordered, same.symm.trans (congrArg some (selects rfl).symm), rfl⟩
      | _ => exact serves.elim
  | _ => exact serves.elim

/-- What is done to this thread on a path: no tool is created or deleted, none of its statements fails, and tied rows
come in a fixed order. -/
structure Undisturbed (tie : Op → Uuid → ℕ) (i : ℕ) (more : List (Event (platform lib config))) : Prop where
  quiet : ∀ event ∈ more, ¬ ChangesTools event
  healthy : ∀ c what, .performed i c what ∈ more → failed what = false
  ordered : ∀ c what, .performed i c what ∈ more → c.tie = tie what.op

theorem Waits.program (waits : Waits i before pool request agent) (path : Path (started lib config) before pool) :
    ∃ owned, pool.threads[i]? =
      some ⟨.executeRun request.tenantId request.id, owned,
        Task.body lib (.executeRun request.tenantId request.id)⟩ := by
  obtain ⟨⟨task, owned, program⟩, there, rfl⟩ := waits.thread
  have follows : (Task.body lib (.executeRun request.tenantId request.id)).Follows (doneBy i before) program :=
    (path.follows rfl).1 i _ there
  rw [waits.idle] at follows
  obtain rfl := follows.eq_of_nil
  exact ⟨owned, there⟩

theorem Waits.predictable (waits : Waits i before pool request agent) :
    Predictable pool.shared.db.store request tie agent (Task.body lib (.executeRun request.tenantId request.id)) := by
  obtain ⟨_, _, id⟩ := Store.findAgent_some waits.found
  exact predictable_task id.symm (id ▸ waits.found)

theorem Waits.answers (waits : Waits i before pool request agent) (path : Path (started lib config) before pool)
    (later : Path pool more last) (undisturbed : Undisturbed tie i more) : ∀ what ∈ doneBy i more,
      what.op.Serves request.tenantId request.id agent.id ∧
        Expected pool.shared.db.store request tie what.op what.answer := by
  obtain ⟨owned, there⟩ := waits.program path
  refine (later.agrees there waits.predictable ?_).1
  rintro start c what rest middle next rfl until_then step serves
  have member : .performed i c what ∈ start ++ .performed i c what :: rest := by simp
  exact waits.expected path until_then (fun event member => undisturbed.quiet event (List.mem_append_left _ member))
    step (undisturbed.healthy c what member) (undisturbed.ordered c what member) serves

/-- The task executes the same operations on all undisturbed paths to its end. -/
theorem Waits.same_operations {more' : List (Event (platform lib config))} {last' : Pool (platform lib config)}
    {result result' : Except AppError Response} (waits : Waits i before pool request agent)
    (path : Path (started lib config) before pool) (later : Path pool more last) (later' : Path pool more' last')
    (undisturbed : Undisturbed tie i more) (undisturbed' : Undisturbed tie i more')
    (returned : last.Returned i (.executeRun request.tenantId request.id) result)
    (returned' : last'.Returned i (.executeRun request.tenantId request.id) result') :
    (doneBy i more).map Performed.op = (doneBy i more').map Performed.op ∧ result = result' := by
  have follows {more : List (Event (platform lib config))} {last : Pool (platform lib config)}
      {result : Except AppError Response} (later : Path pool more last)
      (returned : last.Returned i (.executeRun request.tenantId request.id) result) :
      (Task.body lib (.executeRun request.tenantId request.id)).Follows (doneBy i more) (.done result) := by
    obtain ⟨owned, finished⟩ := returned
    have history := ((path.append later).follows rfl).1 i _ finished
    rwa [doneBy_append, waits.idle, List.nil_append] at history
  exact (waits.predictable).unique (follows later returned) (follows later' returned')
    (fun what member => (waits.answers path later undisturbed what member).2)
    fun what member => (waits.answers path later' undisturbed' what member).2

/-! ## The outcome of a run -/

/-- A run without the times at which it was started and finished. -/
def RunRow.content (row : RunRow) : RunRow := { row with startedAt := none, finishedAt := none }

/-- An event without its generated id and its time. -/
def TraceRow.content (row : TraceRow) : TraceRow := { row with id := Uuid.nil, createdAt := 0 }

/-- The run and its trace are the same, up to times and generated ids. -/
structure Store.SameOutcome (runId : Uuid) (s t : Store) : Prop where
  run : (s.runs.filter (·.id == runId)).map RunRow.content = (t.runs.filter (·.id == runId)).map RunRow.content
  trace : (s.runTraces.filter (·.runId == runId)).map TraceRow.content =
    (t.runTraces.filter (·.runId == runId)).map TraceRow.content

theorem Database.SameRun.sameOutcome {db db' : Database} (same : SameRun runId db db') :
    db.store.SameOutcome runId db'.store :=
  ⟨congrArg (List.map RunRow.content) same.row.symm, congrArg (List.map TraceRow.content) same.events.symm⟩

/-- The numbers of events follow from their order. -/
theorem Store.Numbered.content {s t : Store} (numbered : s.Numbered) (numbered' : t.Numbered)
    (same : (s.traceRows tenantId runId).map TraceRow.event = (t.traceRows tenantId runId).map TraceRow.event) :
    (s.traceRows tenantId runId).map TraceRow.content = (t.traceRows tenantId runId).map TraceRow.content := by
  refine List.ext_getElem? fun k => ?_
  have event := congrArg (·[k]?) same
  simp only [List.getElem?_map] at event ⊢
  cases found : (s.traceRows tenantId runId)[k]? with
  | none =>
    rw [found] at event
    rw [Option.map_eq_none_iff.mp event.symm]
  | some row =>
    rw [found] at event
    obtain ⟨row', found', event⟩ := Option.map_eq_some_iff.mp event.symm
    rw [found']
    have owned {u : Store} {row : TraceRow} (found : (u.traceRows tenantId runId)[k]? = some row) :
        row.tenantId = tenantId ∧ row.runId = runId := by
      have hit := (List.mem_filter.mp (List.mem_of_getElem? found)).2
      simpa using hit
    obtain ⟨owner, run⟩ := owned found
    obtain ⟨owner', run'⟩ := owned found'
    have seq : row'.seq = row.seq := (numbered' _ _ k row' found').trans (numbered _ _ k row found).symm
    simp only [TraceRow.event, Prod.mk.injEq] at event
    simp only [Option.map_some, TraceRow.content, owner, owner', run, run', seq, event.1, event.2]

theorem Valid.runs_filter {w : World} {run : RunRow} (valid : Valid lib w) (present : run ∈ w.db.store.runs) :
    w.db.store.runs.filter (·.id == run.id) = [run] := by
  have once : w.db.store.runs.countP (·.id == run.id) = 1 :=
    valid.wellFormed.runs.ids.committed.countP_eq_one present fun other _ => by simp
  rw [List.countP_eq_length_filter] at once
  obtain ⟨only, single⟩ := List.length_eq_one_iff.mp once
  have member : run ∈ w.db.store.runs.filter (·.id == run.id) := List.mem_filter.mpr ⟨present, by simp⟩
  rw [single] at member ⊢
  rw [List.mem_singleton.mp member]

/-- All events with the id of a run are events of its tenant. -/
theorem Valid.traces_filter {w : World} {run : RunRow} (valid : Valid lib w) (present : run ∈ w.db.store.runs) :
    w.db.store.runTraces.filter (·.runId == run.id) = w.db.store.traceRows run.tenantId run.id := by
  apply List.filter_congr
  intro trace member
  by_cases mine : trace.runId = run.id
  · obtain ⟨other, there, owner, id⟩ := valid.wellFormed.traces trace member
    rw [valid.unique present there (id.trans mine)] at owner
    simp [mine, owner]
  · simp [mine]

/-- How a run has ended. -/
def RunRow.ending (run : RunRow) : RunStatus × Option String × Option String :=
  (run.status, run.finalAnswer, run.errorReason)

theorem RunRow.content_eq {run run' : RunRow} (asked : request.SameRequest run) (asked' : request.SameRequest run')
    (ending : run.ending = run'.ending) : run.content = run'.content := by
  simp only [RunRow.ending, Prod.mk.injEq] at ending
  obtain ⟨status, answer, reason⟩ := ending
  simp only [RunRow.content, asked.id, asked.tenantId, asked.agentId, asked.inputMessages, asked.idempotencyKey,
    asked.createdAt, asked'.id, asked'.tenantId, asked'.agentId, asked'.inputMessages, asked'.idempotencyKey,
    asked'.createdAt, status, answer, reason]

/-- The closing event of a run says how it has ended. -/
theorem RunRow.Sound.closed {s : Store} {run : RunRow} {stage : Stage} {payload : Value}
    (sound : run.Sound lib s stage) (member : (.runEnd, payload) ∈ stage.events) :
    (∃ answer, payload = Payload.runEndSuccess answer ∧ run.ending = (.success, some answer, none)) ∨
    ∃ reason, payload = Payload.runEndFailed reason ∧ run.ending = (.failed, none, some reason) := by
  have columns := sound.columns
  have fits := columns.columnsFit
  rcases Stage.of_mem_runEnd member with ⟨answer, status, given, rfl⟩ | ⟨reason, status, given, rfl⟩
  · rw [← columns.status] at status
    rw [← columns.finalAnswer] at given
    exact .inl ⟨answer, rfl, by rw [RunRow.ending, status, given, (fits.success status).2.2.2]⟩
  · rw [← columns.status] at status
    rw [← columns.errorReason] at given
    exact .inr ⟨reason, rfl, by rw [RunRow.ending, status, given, (fits.failed status).2.2]⟩

theorem RunRow.Sound.ending_unique {s t : Store} {run run' : RunRow} {stage stage' : Stage} {payload : Value}
    (sound : run.Sound lib s stage) (sound' : run'.Sound lib t stage') (member : (.runEnd, payload) ∈ stage.events)
    (member' : (.runEnd, payload) ∈ stage'.events) : run.ending = run'.ending := by
  rcases sound.closed member with ⟨answer, rfl, ends⟩ | ⟨reason, rfl, ends⟩
  · rcases sound'.closed member' with ⟨answer', same, ends'⟩ | ⟨reason', same, ends'⟩
    · cases same
      exact ends.trans ends'.symm
    · simp [Payload.runEndSuccess, Payload.runEndFailed] at same
  · rcases sound'.closed member' with ⟨answer', same, ends'⟩ | ⟨reason', same, ends'⟩
    · simp [Payload.runEndSuccess, Payload.runEndFailed] at same
    · cases same
      exact ends.trans ends'.symm

/-- The run has been left running, or its last event has closed it. -/
def Stage.Left (stage : Stage) : Prop := stage.status = .running ∨ ∃ payload, (.runEnd, payload) ∈ stage.events

/-- Two runs with the same events that have been left have ended in the same way. -/
theorem RunRow.Sound.same_ending {s t : Store} {run run' : RunRow} {stage stage' : Stage}
    (sound : run.Sound lib s stage) (sound' : run'.Sound lib t stage') (same : stage.events = stage'.events)
    (left : stage.Left) (left' : stage'.Left) : run.ending = run'.ending := by
  have running {u : Store} {run : RunRow} {stage : Stage} (sound : run.Sound lib u stage)
      (status : stage.status = .running) :
      run.ending = (.running, none, none) ∧ ∀ payload, (.runEnd, payload) ∉ stage.events := by
    rw [← sound.columns.status] at status
    obtain ⟨_, _, answer, reason⟩ := sound.columns.columnsFit.running status
    refine ⟨by rw [RunRow.ending, status, answer, reason], fun payload member => ?_⟩
    rcases sound.closed member with ⟨_, _, ends⟩ | ⟨_, _, ends⟩ <;> cases status.symm.trans (congrArg Prod.fst ends)
  rcases left with status | ⟨payload, member⟩
  · obtain ⟨ends, open_⟩ := running sound status
    rcases left' with status' | ⟨payload, member'⟩
    · exact ends.trans (running sound' status').1.symm
    · exact absurd (same ▸ member') (open_ payload)
  · exact sound.ending_unique sound' member (same ▸ member)

/-! ## Independence -/

/-- What the operation appends to a trace. -/
def Op.entry? : Op → Option (EventType × Value)
  | .sql (.appendEvent _ _ eventType payload) => some (eventType, payload)
  | _ => none

theorem appendedBy_of_answer {c : Choice} {what : Performed signature}
    (serves : what.op.Serves request.tenantId request.id agent.id)
    (expected : Expected pool.shared.db.store request tie what.op what.answer) :
    @appendedBy lib config request.tenantId request.id (.performed i c what) = what.op.entry? := by
  obtain ⟨op, answer⟩ := what
  cases op with
  | sql statement =>
    cases statement with
    | appendEvent tenantId runId eventType payload =>
      obtain ⟨rfl, rfl⟩ := serves
      obtain rfl : answer = .ok () := expected
      simp [appendedBy, appended?, Op.entry?]
    | _ => rfl
  | _ => rfl

/-- The trace of the run grows by what its task appends. -/
theorem Waits.appended (waits : Waits i before pool request agent) (path : Path (started lib config) before pool)
    (later : Path pool more last)
    (answers : ∀ what ∈ doneBy i more, what.op.Serves request.tenantId request.id agent.id ∧
      Expected pool.shared.db.store request tie what.op what.answer) :
    appendedTo request.tenantId request.id more = (doneBy i more).filterMap fun what => Op.entry? what.op := by
  obtain ⟨thread, there, task⟩ := waits.thread
  induction later with
  | nil => rfl
  | @snoc middle last events event later step ih =>
    rw [appendedTo, List.filterMap_append, ← appendedTo, doneBy_append, List.filterMap_append,
      ih fun what member => answers what (doneBy_append i events _ ▸ List.mem_append_left _ member)]
    congr 1
    by_cases mine : event.IsBy i
    · obtain ⟨c, what, rfl⟩ := mine
      obtain ⟨serves, expected⟩ := answers what (mem_doneBy.mpr ⟨c, by simp⟩)
      rw [doneBy_performed, if_pos rfl]
      simp only [List.filterMap_cons, List.filterMap_nil, appendedBy_of_answer serves expected]
    · obtain ⟨moved, stands, same⟩ := later.task there
      have kept := (sameRun_of_step (path.append later) stands (same.trans task) step mine).traceRows request.tenantId
      rw [doneBy_other mine]
      rcases traceRows_of_step step request.tenantId request.id with ⟨silent, _⟩ | ⟨row, _, grown⟩
      · rw [List.filterMap_cons_none silent]
        rfl
      · rw [kept] at grown
        simp at grown

theorem Waits.trace (waits : Waits i before pool request agent) (path : Path (started lib config) before pool)
    (later : Path pool more last) (undisturbed : Undisturbed tie i more) :
    (last.shared.db.store.traceRows request.tenantId request.id).map TraceRow.event =
      appendedTo request.tenantId request.id before ++ ((doneBy i more).map Performed.op).filterMap Op.entry? := by
  have grown := waits.appended path later (waits.answers path later undisturbed)
  have mapped : ((doneBy i more).map Performed.op).filterMap Op.entry? =
      (doneBy i more).filterMap fun what => Op.entry? what.op :=
    List.filterMap_map
  rw [trace_of_appended (path.append later), appendedTo, List.filterMap_append, ← appendedTo, ← appendedTo, grown]
  exact congrArg _ mapped.symm

/-- In the end the run is settled, or it has been left running. -/
theorem Waits.left (waits : Waits i before pool request agent) (path : Path (started lib config) before pool)
    (later : Path pool more last) (undisturbed : Undisturbed tie i more) {result : Except AppError Response}
    (returned : last.Returned i (.executeRun request.tenantId request.id) result) :
    ∃ run ∈ last.shared.db.store.runs, request.SameRequest run ∧
      ∃ stage, run.Sound lib last.shared.db.store stage ∧ stage.Left := by
  have whole := path.append later
  have succeeded : (doneBy i (before ++ more)).any failed = false := by
    rw [doneBy_append, waits.idle, List.nil_append, List.any_eq_false]
    intro what member
    obtain ⟨c, member⟩ := mem_doneBy.mp member
    simp [undisturbed.healthy c what member]
  have began := begun_of_succeeded whole returned succeeded
  obtain ⟨claims, holds⟩ := holds_of_started whole
  obtain ⟨owned, _, _, _, asked, stage, id, owner, ⟨run, present, same, sound⟩, concluded⟩ := holds.returned returned
  obtain ⟨other, there, requested⟩ := (lasting_request request).of_path path later waits.asked
  obtain rfl := holds.valid.unique present there (requested.id.trans (same.id.trans id).symm)
  refine ⟨other, present, requested, stage, sound, ?_⟩
  rcases concluded began succeeded with ⟨_, running⟩ | ⟨_, rounds, decision, verdict, rfl⟩
  · exact .inl running
  · exact .inr ⟨_, List.mem_append_right _ (List.mem_singleton_self _)⟩

/-- All undisturbed paths to the end of the task have the same outcome. -/
theorem Waits.same_outcome {more' : List (Event (platform lib config))} {last' : Pool (platform lib config)}
    {result result' : Except AppError Response} (waits : Waits i before pool request agent)
    (path : Path (started lib config) before pool) (later : Path pool more last) (later' : Path pool more' last')
    (undisturbed : Undisturbed tie i more) (undisturbed' : Undisturbed tie i more')
    (returned : last.Returned i (.executeRun request.tenantId request.id) result)
    (returned' : last'.Returned i (.executeRun request.tenantId request.id) result') :
    last.shared.db.store.SameOutcome request.id last'.shared.db.store := by
  obtain ⟨run, present, asked, stage, sound, left⟩ := waits.left path later undisturbed returned
  obtain ⟨run', present', asked', stage', sound', left'⟩ := waits.left path later' undisturbed' returned'
  have same_ops := (waits.same_operations path later later' undisturbed undisturbed' returned returned').1
  have events : (last.shared.db.store.traceRows request.tenantId request.id).map TraceRow.event =
      (last'.shared.db.store.traceRows request.tenantId request.id).map TraceRow.event := by
    have entries := congrArg (List.filterMap Op.entry?) same_ops
    exact (waits.trace path later undisturbed).trans
      ((congrArg _ entries).trans (waits.trace path later' undisturbed').symm)
  have valid : Valid lib last.shared := valid_of_started (path.append later)
  have valid' : Valid lib last'.shared := valid_of_started (path.append later')
  have stages : stage.events = stage'.events := by
    rw [← sound.events, ← sound'.events, asked.id, asked.tenantId, asked'.id, asked'.tenantId, events]
  have content := RunRow.content_eq asked asked' (sound.same_ending sound' stages left left')
  constructor
  · rw [← asked.id, valid.runs_filter present, asked.id, ← asked'.id, valid'.runs_filter present', List.map_singleton,
      List.map_singleton, content]
  · rw [← asked.id, valid.traces_filter present, asked.id, asked.tenantId, ← asked'.id, valid'.traces_filter present',
      asked'.id, asked'.tenantId]
    exact (numbered_of_started (path.append later)).content (numbered_of_started (path.append later')) events

/-- Other threads leave alone what the task of the run uses. -/
theorem Waits.mirrors_other (waits : Waits i before pool request agent) (path : Path (started lib config) before pool)
    (later : Path pool more middle) (step : Step middle event next)
    (quiet : ∀ other ∈ more ++ [event], ¬ ChangesTools other) (other : ¬ event.IsBy i) {twin : Database}
    (mirrors : middle.shared.db.Mirrors request.tenantId request.id agent twin) :
    next.shared.db.Mirrors request.tenantId request.id agent twin := by
  obtain ⟨present, owner, _⟩ := Store.findAgent_some waits.found
  obtain ⟨thread, there, task⟩ := waits.thread
  obtain ⟨moved, stands, same⟩ := later.task there
  have reads :=
    sameReads_of_path path later (fun event member => quiet event (List.mem_append_left _ member)) present owner
  have reads' := sameReads_of_path path (later.snoc step) quiet present owner
  have kept := sameRun_of_step (path.append later) stands (same.trans task) step other
  have grown := (evolves_of_started (path.append later) step).runTraces
  exact ⟨reads'.symm.trans (reads.trans mirrors.reads), kept.symm.trans mirrors.run,
    List.Subset.trans mirrors.fewer grown.subset⟩

/-- An operation of the task has the same effect where only its own operations were executed. -/
theorem exec_of_mirrors {c : Choice} {op : Op} {permits : List SemaphoreRef} {w twin : World}
    {effect : Effect signature (List SemaphoreRef) World Task op} (serves : op.Serves tenantId runId agent.id)
    (alive : failed ⟨op, effect.answer⟩ = false) (ran : op.exec config Task.executeRun c permits w = some effect)
    (mirrors : w.db.Mirrors tenantId runId agent twin.db) : ∃ twin' : World,
      op.exec config Task.executeRun c permits twin = some ⟨effect.answer, effect.owned, twin', effect.spawned⟩ ∧
        effect.shared.db.Mirrors tenantId runId agent twin'.db := by
  cases op with
  | dropPermit semaphore =>
    simp only [Op.exec] at ran ⊢
    split_ifs at ran ⊢ with held <;> cases ran <;> exact ⟨_, rfl, mirrors⟩
  | sql statement =>
    obtain ⟨⟨answer, db⟩, executed, rfl⟩ := Option.map_eq_some_iff.mp ran
    cases answer with
    | error fault => cases alive
    | ok row =>
      obtain ⟨twin', executed', mirrors'⟩ := mirrors.execute serves executed
      exact ⟨{ twin with db := twin' }, by rw [Op.exec, executed']; rfl, mirrors'⟩
  | _ => exact serves.elim

/-- What the task does on an undisturbed path it also does alone. -/
theorem Waits.alone (waits : Waits i before pool request agent) (path : Path (started lib config) before pool)
    (later : Path pool more last) (undisturbed : Undisturbed tie i more) {result : Except AppError Response}
    (returned : last.Returned i (.executeRun request.tenantId request.id) result) :
    ∃ alone, Path pool (more.filter (Event.ofThread i)) alone ∧
      alone.Returned i (.executeRun request.tenantId request.id) result ∧
      SameRun request.id last.shared.db alone.shared.db := by
  obtain ⟨owned, there⟩ := waits.program path
  have start : pool.shared.db.Mirrors request.tenantId request.id agent pool.shared.db :=
    ⟨⟨rfl, rfl, rfl⟩, .refl _ _, List.Subset.refl _⟩
  have predictable : Predictable pool.shared.db.store request tie agent _ := waits.predictable
  have solo := @Path.solo (platform lib config) pool last more i
    (fun w twin => w.db.Mirrors request.tenantId request.id agent twin.db) _ _ _ _ _ later there predictable start
  refine (solo ?_ ?_).elim ?_
  · rintro start event rest middle next twin rfl until_then step other mirrors
    refine waits.mirrors_other path until_then step (fun event member => undisturbed.quiet event ?_) other mirrors
    rw [List.append_cons]
    exact List.mem_append_left _ member
  · rintro start c op rest middle owned continuation effect twin serves rfl until_then waiting ran mirrors
    have member : .performed i c ⟨op, effect.answer⟩ ∈ start ++ .performed i c ⟨op, effect.answer⟩ :: rest := by simp
    have alive := undisturbed.healthy c _ member
    have expected :=
      waits.expected path until_then (fun event member => undisturbed.quiet event (List.mem_append_left _ member))
      (.act waiting ran) alive (undisturbed.ordered c _ member) serves
    exact ⟨⟨expected, expected⟩, exec_of_mirrors serves alive ran mirrors⟩
  · rintro alone ⟨mine, mirrors, owned', program, _, reached, reached'⟩
    obtain ⟨owned'', finished⟩ := returned
    cases reached.symm.trans finished
    exact ⟨alone, mine, ⟨_, reached'⟩, mirrors.run⟩

theorem sameRun_of_serves {owner run agentId : Uuid} {db db' : Database} {c : Choice} {statement : Statement}
    {answer : Except SqlxError statement.Row} (ran : Executed c db statement answer db')
    (serves : (Op.sql statement).Serves owner run agentId) (other : runId ≠ run) : SameRun runId db db' := by
  refine sameRun_executed ran ?_ ?_
  · cases statement with
    | beginRunExecution | finalizeRun | appendEvent =>
      obtain ⟨rfl, rfl⟩ := serves
      exact fun same => other (Option.some.inj same).symm
    | markRunFailed => exact serves.elim
    | _ => rintro ⟨⟩
  · rintro tx rfl
    exact serves.elim

/-- Operations for other runs leave a run as it is. -/
theorem sameRun_of_path (later : Path pool more last)
    (foreign : ∀ event ∈ more, ∃ (i : ℕ) (c : Choice) (what : Performed signature)
      (owner run agentId : Uuid), event = .performed i c what ∧ what.op.Serves owner run agentId ∧ runId ≠ run) :
    SameRun runId pool.shared.db last.shared.db := by
  induction later with
  | nil => exact .refl _ _
  | @snoc middle last events event later step ih =>
    apply (ih fun event member => foreign event (List.mem_append_left _ member)).trans
    obtain ⟨i, c, what, owner, run, agentId, rfl, serves, other⟩ := foreign event (by simp)
    rcases store_of_step step with same | ⟨_, _, statement, answer, happened, ran⟩
    · exact ⟨by rw [same], by rw [same]⟩
    · cases happened
      exact sameRun_of_serves ran serves other

/-- The task of this run has been spawned as this thread and has not begun. -/
structure Admitted (i : ℕ) (before : List (Event (platform lib config))) (pool : Pool (platform lib config))
    (tenantId runId : Uuid) : Prop where
  thread : ∃ thread : Thread (platform lib config), pool.threads[i]? = some thread ∧
    thread.task = .executeRun tenantId runId
  idle : doneBy i before = []

/-- These tasks run to their ends, in some order. -/
structure Completes (tie : Op → Uuid → ℕ) (tasks : Set ℕ) (pool : Pool (platform lib config))
    (events : List (Event (platform lib config))) (last : Pool (platform lib config)) : Prop where
  path : Path pool events last
  undisturbed : ∀ i ∈ tasks, Undisturbed tie i events
  returned : ∀ i ∈ tasks, ∀ thread, pool.threads[i]? = some thread → ∃ result, last.Returned i thread.task result

theorem Admitted.waits (admitted : Admitted i before pool tenantId runId)
    (path : Path (started lib config) before pool) :
    ∃ request agent, request.tenantId = tenantId ∧ request.id = runId ∧ Waits i before pool request agent := by
  obtain ⟨thread, there, task⟩ := admitted.thread
  obtain ⟨request, rfl, rfl, run, present, asked, _⟩ := announced_of_idle path there task admitted.idle
  have valid : Valid lib pool.shared := valid_of_started path
  obtain ⟨agent, found⟩ := valid.findAgent present
  rw [asked.tenantId, asked.agentId] at found
  exact ⟨request, agent, rfl, rfl, ⟨thread, there, task⟩, admitted.idle, ⟨run, present, asked⟩, found⟩

/-- The task of a run has the same outcome in all histories in which it completes. -/
theorem Admitted.same_outcome {tasks tasks' : Set ℕ} {more' : List (Event (platform lib config))}
    {last' : Pool (platform lib config)} (admitted : Admitted i before pool tenantId runId)
    (path : Path (started lib config) before pool) (completes : Completes tie tasks pool more last)
    (completes' : Completes tie tasks' pool more' last') (member : i ∈ tasks) (member' : i ∈ tasks') :
    last.shared.db.store.SameOutcome runId last'.shared.db.store := by
  obtain ⟨request, agent, rfl, rfl, waits⟩ := admitted.waits path
  obtain ⟨thread, there, task⟩ := admitted.thread
  obtain ⟨result, returned⟩ := completes.returned i member thread there
  obtain ⟨result', returned'⟩ := completes'.returned i member' thread there
  rw [task] at returned returned'
  exact waits.same_outcome path completes.path completes'.path (completes.undisturbed i member)
    (completes'.undisturbed i member') returned returned'

/-- A task completes alone if it completes among others. -/
theorem Admitted.alone {tasks : Set ℕ} (admitted : Admitted i before pool tenantId runId)
    (path : Path (started lib config) before pool) (completes : Completes tie tasks pool more last)
    (member : i ∈ tasks) :
    ∃ events alone, (∀ event ∈ events, event.IsBy i) ∧ Completes tie {i} pool events alone := by
  obtain ⟨request, agent, rfl, rfl, waits⟩ := admitted.waits path
  obtain ⟨thread, there, task⟩ := admitted.thread
  obtain ⟨result, returned⟩ := completes.returned i member thread there
  rw [task] at returned
  have undisturbed := completes.undisturbed i member
  obtain ⟨alone, mine, finished, _⟩ := waits.alone path completes.path undisturbed returned
  refine ⟨_, alone, fun event within => Event.ofThread_iff.mp (List.mem_filter.mp within).2, mine, ?_, ?_⟩
  · rintro j rfl
    have kept {event : Event (platform lib config)} (within : event ∈ more.filter (Event.ofThread j)) :
        event ∈ more :=
      (List.mem_filter.mp within).1
    exact ⟨fun event within => undisturbed.quiet event (kept within), fun c what within =>
      undisturbed.healthy c what (kept within), fun c what within => undisturbed.ordered c what (kept within)⟩
  · rintro _ rfl thread' there'
    cases there.symm.trans there'
    exact ⟨result, task ▸ finished⟩

/-- While only these tasks move, all other runs stay as they are. -/
theorem Completes.sameRun {tasks : Set ℕ} (completes : Completes tie tasks pool more last)
    (path : Path (started lib config) before pool)
    (admitted : ∀ i ∈ tasks, ∃ tenantId runId, Admitted i before pool tenantId runId)
    (only : ∀ event ∈ more, ∃ i ∈ tasks, event.IsBy i)
    (other : ∀ i ∈ tasks, ∀ tenantId run, Admitted i before pool tenantId run → runId ≠ run) :
    SameRun runId pool.shared.db last.shared.db := by
  apply sameRun_of_path completes.path
  intro event member
  obtain ⟨i, mine, c, what, rfl⟩ := only event member
  obtain ⟨tenantId, run, there⟩ := admitted i mine
  obtain ⟨request, agent, rfl, rfl, waits⟩ := there.waits path
  have answers := waits.answers path completes.path (completes.undisturbed i mine)
  exact ⟨i, c, what, _, _, _, rfl, (answers what (mem_doneBy.mpr ⟨c, member⟩)).1, other i mine _ _ there⟩

/-- Runs do not influence each other: each ends as if its task had run alone, and all interleavings of the same tasks
end with the same runs and the same traces. -/
theorem runs_independent (path : Path (started lib config) before pool) {tasks : Set ℕ}
    (admitted : ∀ i ∈ tasks, ∃ tenantId runId, Admitted i before pool tenantId runId)
    (completes : Completes tie tasks pool more last) :
    (∀ i ∈ tasks, ∀ tenantId runId, Admitted i before pool tenantId runId →
      (∃ events alone, (∀ event ∈ events, event.IsBy i) ∧ Completes tie {i} pool events alone) ∧
      ∀ events alone, (∀ event ∈ events, event.IsBy i) → Completes tie {i} pool events alone →
        last.shared.db.store.SameOutcome runId alone.shared.db.store) ∧
    ∀ events other, Completes tie tasks pool events other →
      (∀ i ∈ tasks, ∀ tenantId runId, Admitted i before pool tenantId runId →
        last.shared.db.store.SameOutcome runId other.shared.db.store) ∧
      ((∀ event ∈ more ++ events, ∃ i ∈ tasks, event.IsBy i) →
        ∀ runId, last.shared.db.store.SameOutcome runId other.shared.db.store) := by
  refine ⟨fun i mine tenantId runId there => ⟨there.alone path completes mine, fun events alone _ solo => ?_⟩, ?_⟩
  · exact there.same_outcome path completes solo mine rfl
  intro events other completes'
  refine ⟨fun i mine tenantId runId there => there.same_outcome path completes completes' mine mine,
    fun only runId => ?_⟩
  by_cases mine : ∃ i ∈ tasks, ∃ tenantId, Admitted i before pool tenantId runId
  · obtain ⟨i, mine, tenantId, there⟩ := mine
    exact there.same_outcome path completes completes' mine mine
  · have apart : ∀ i ∈ tasks, ∀ tenantId run, Admitted i before pool tenantId run → runId ≠ run := by
      rintro i within tenantId _ there rfl
      exact mine ⟨i, within, tenantId, there⟩
    have left :=
      completes.sameRun path admitted (fun event member => only event (List.mem_append_left _ member)) apart
    have right :=
      completes'.sameRun path admitted (fun event member => only event (List.mem_append_right _ member)) apart
    exact (left.symm.trans right).sameOutcome

namespace Scenario

variable {config : Config}

/-- Two runs of one agent are admitted. -/
def admissions : List (Label (platform permissive config)) :=
  onboarding ++ [arrive (.createTool headers staticTool)] ++ moves 2 10 2 ++
  [arrive (.createAgent headers ⟨none, "Answer.", [11], 5⟩)] ++ moves 3 20 7 ++
  [arrive (.startRun headers 22 question)] ++ moves 4 30 10 ++
    [arrive (.startRun headers 22 question)] ++ moves 6 50 10

/-- The two tasks take turns. -/
def takingTurns : List (Label (platform permissive config)) :=
  (List.range 19).flatMap fun k => moves 5 (100 + k) 1 ++ moves 7 (200 + k) 1

/-- One task after the other. -/
def oneByOne : List (Label (platform permissive config)) := moves 7 100 19 ++ moves 5 200 19

theorem choice_tie (k : ℕ) : (choice k).tie = fun _ => 0 := by
  unfold choice
  split <;> rfl

theorem tie_of_moves {i first count j : ℕ} {c : Choice} (member : .act i c ∈ @moves config j first count) :
    c.tie = fun _ => 0 := by
  obtain ⟨k, _, same⟩ := List.mem_map.mp member
  cases same
  exact choice_tie _

/-- The task of this thread has not begun. -/
def spawned (i : ℕ) (events : List (Event (platform permissive config)))
    (pool : Pool (platform permissive config)) : Bool :=
  (doneBy i events).isEmpty && match pool.threads[i]? with
    | some ⟨.executeRun .., _, _⟩ => true
    | _ => false

theorem of_spawned {i : ℕ} {events : List (Event (platform permissive config))}
    {pool : Pool (platform permissive config)} (checked : spawned i events pool = true) :
    ∃ tenantId runId, Admitted i events pool tenantId runId := by
  obtain ⟨idle, there⟩ := Bool.and_eq_true_iff.mp checked
  split at there
  · next tenantId runId owned program present =>
    exact ⟨tenantId, runId, ⟨_, present, rfl⟩, List.isEmpty_iff.mp idle⟩
  · cases there

/-- An operation of one of these threads that changes no tools and does not fail. -/
def calm (tasks : List ℕ) : Event (platform permissive config) → Bool
  | .arrived _ => false
  | .performed _ _ ⟨.sql (.createTool ..), _⟩ | .performed _ _ ⟨.sql (.deleteTool ..), _⟩ => false
  | .performed i _ what => tasks.contains i && !failed what

/-- With this schedule these tasks run to their ends. -/
def finishes (tasks : List ℕ) (labels : List (Label (platform permissive config)))
    (pool : Pool (platform permissive config)) : Bool :=
  (pool.replay? labels).any fun (events, last) => events.all (calm tasks) && tasks.all fun i =>
    match last.threads[i]? with
    | some ⟨_, _, .done _⟩ => true
    | _ => false

theorem of_calm {tasks : List ℕ} {event : Event (platform permissive config)} (checked : calm tasks event = true) :
    ¬ ChangesTools event ∧ ∃ i ∈ tasks, ∃ c what, event = .performed i c what ∧ failed what = false := by
  unfold calm at checked
  split at checked
  · cases checked
  · cases checked
  · cases checked
  · next i c what noCreation noDeletion =>
    simp only [Bool.and_eq_true, List.contains_eq_mem, decide_eq_true_eq, Bool.not_eq_true'] at checked
    refine ⟨?_, i, checked.1, c, what, rfl, checked.2⟩
    rintro ⟨_, _, ⟨op, answer⟩, ⟨⟩, changes⟩
    cases op with
    | sql statement =>
      cases statement with
      | createTool tenantId name inputSchema mockHandler => exact noCreation _ _ _ _ _ rfl
      | deleteTool tenantId toolId => exact noDeletion _ _ _ rfl
      | _ => exact changes
    | _ => exact changes

theorem of_finishes {tasks : List ℕ} {labels : List (Label (platform permissive config))}
    {pool : Pool (platform permissive config)} (ties : ∀ i c, .act i c ∈ labels → c.tie = fun _ => 0)
    (checked : finishes tasks labels pool = true) :
    ∃ events last, Completes (fun _ _ => 0) {i | i ∈ tasks} pool events last ∧
      ∀ event ∈ events, ∃ i ∈ tasks, event.IsBy i := by
  obtain ⟨⟨events, last⟩, replayed, checked⟩ := (Option.any_eq_true ..).mp checked
  simp only [Bool.and_eq_true, List.all_eq_true] at checked
  obtain ⟨quiet, ended⟩ := checked
  have path := Pool.replay?_sound replayed
  refine ⟨events, last, ⟨path, fun i _ => ⟨?_, ?_, ?_⟩, ?_⟩, fun event member => ?_⟩
  · exact fun event member => (of_calm (quiet event member)).1
  · intro c what member
    obtain ⟨_, _, _, _, same, alive⟩ := (of_calm (quiet _ member)).2
    cases same
    exact alive
  · exact fun c what member => ties i c (Pool.replay?_labels replayed member)
  · intro i member thread present
    obtain ⟨after, there, same⟩ := path.task present
    have finished := ended i member
    rw [there] at finished
    split at finished
    · next task owned result found =>
      cases found
      exact ⟨result, owned, same ▸ there⟩
    · cases finished
  · obtain ⟨i, mine, c, what, same, _⟩ := (of_calm (quiet event member)).2
    exact ⟨i, mine, c, what, same⟩

end Scenario

/-- Two runs have the same outcome when their tasks take turns and when one comes after the other. -/
theorem runs_independent_served : ∃ before pool more last events other, Path (started permissive ⟨2, 2⟩) before pool ∧
    Path pool more last ∧ Path pool events other ∧
    (∃ tenantId runId, Admitted 5 before pool tenantId runId) ∧
    (∃ tenantId runId, Admitted 7 before pool tenantId runId) ∧
    ∀ runId, last.shared.db.store.SameOutcome runId other.shared.db.store := by
  obtain ⟨before, pool, path, checked⟩ := (started permissive ⟨2, 2⟩).exists_path admissions
    (fun events pool => spawned 5 events pool && spawned 7 events pool && finishes [5, 7] takingTurns pool &&
      finishes [5, 7] oneByOne pool) (by decide +kernel)
  simp only [Bool.and_eq_true] at checked
  obtain ⟨⟨⟨first, second⟩, together⟩, apart⟩ := checked
  have ties : ∀ i c, .act i c ∈ @takingTurns ⟨2, 2⟩ → c.tie = fun _ => 0 := by
    intro i c member
    obtain ⟨k, _, turn⟩ := List.mem_flatMap.mp member
    rcases List.mem_append.mp turn with turn | turn <;> exact tie_of_moves turn
  have ties' : ∀ i c, .act i c ∈ @oneByOne ⟨2, 2⟩ → c.tie = fun _ => 0 := by
    intro i c member
    rcases List.mem_append.mp member with turn | turn <;> exact tie_of_moves turn
  obtain ⟨more, last, completes, only⟩ := of_finishes ties together
  obtain ⟨events, other, completes', only'⟩ := of_finishes ties' apart
  have admitted : ∀ i ∈ {i | i ∈ [5, 7]}, ∃ tenantId runId, Admitted i before pool tenantId runId := by
    intro i member
    rcases List.mem_cons.mp member with rfl | member
    · exact of_spawned first
    · obtain rfl := List.mem_singleton.mp member
      exact of_spawned second
  refine ⟨before, pool, more, last, events, other, path, completes.path, completes'.path,
    of_spawned first, of_spawned second, ?_⟩
  apply ((runs_independent path admitted completes).2 events other completes').2
  intro event member
  rcases List.mem_append.mp member with left | right
  · exact only event left
  · exact only' event right

end AgentPlatform
