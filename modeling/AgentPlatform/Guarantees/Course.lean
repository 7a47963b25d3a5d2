import AgentPlatform.Ownership.Verified

/-! # The course of every run

In every state that the server reaches, the columns and the events of a run are those of one stage
of its course. What the lifecycle promises about statuses, closing events and tool calls is read
off the stages.
-/

set_option autoImplicit false

namespace AgentPlatform

open Interleaving Relational Database

variable {lib : Libraries} {config : Config} {events : List (Event (platform lib config))}
  {pool : Pool (platform lib config)}

/-- The events of a run are those of its stage. -/
theorem RunRow.Sound.event_mem {s : Store} {run : RunRow} {stage : Stage} (sound : run.Sound lib s stage)
    {trace : TraceRow} (present : trace ∈ s.runTraces) (tenantId : trace.tenantId = run.tenantId)
    (runId : trace.runId = run.id) : (trace.type, trace.payload) ∈ stage.events := by
  rw [← sound.events]
  refine List.mem_map.mpr ⟨trace, List.mem_filter.mpr ⟨present, ?_⟩, rfl⟩
  simp [tenantId, runId]

/-! ## A served run -/

namespace Scenario

/-- Libraries that accept everything they are asked about. One float that `serde_json` rounds is among those that they
read. -/
def permissive : Libraries where
  compile _ := some fun _ => true
  hashPassword _ password := some password
  parsesHash _ := true
  verifyPassword password hash := password == hash
  readFloat mantissa exponent :=
    if mantissa = 10000000000000001 ∧ exponent = -40 then (1, -24) else (mantissa, exponent)

/-- The choice that generates this id. -/
def choice (id : ℕ) : Choice :=
  if new : BitVec.ofNat 128 id ≠ Uuid.nil then { id := BitVec.ofNat 128 id, id_not_nil := new, now := id } else {}

variable {config : Config}

/-- A thread executes so many operations, with successive ids. -/
def moves (thread first count : ℕ) : List (Label (platform permissive config)) :=
  (List.range count).map fun k => .act thread (choice (first + k))

def arrive (request : Request) : Label (platform permissive config) := .arrive (.http request)

def headers : HeaderMap where
  authorization := some (("Bearer map_live_" ++ String.ofList (List.replicate 12 'a') ++ "_" ++
    String.ofList (List.replicate 32 'a')).toList.map fun c => UInt8.ofNat c.toNat)

/-- A tenant registers and gets its key. -/
def onboarding : List (Label (platform permissive config)) :=
  [arrive (.createTenant ⟨"tenant"⟩)] ++ moves 0 1 1 ++
  [arrive (.createApiKey 1), .act 1 { choice 2 with chars := List.replicate 12 'a' },
    .act 1 { choice 3 with chars := List.replicate 32 'a' }] ++ moves 1 4 2

def staticTool : CreateToolRequest where
  name := "search"
  inputSchema := .object []
  mockHandler := .object [("type", .string "static"), ("response", .string "found")]

def question : StartRunRequest := ⟨[⟨"user", "What is new?"⟩]⟩

/-- The tenant creates this tool and an agent that uses it, asks it this, and the run is executed. -/
def serviceWith (tool : CreateToolRequest) (asked : StartRunRequest) (operations : ℕ) :
    List (Label (platform permissive config)) :=
  onboarding ++ [arrive (.createTool headers tool)] ++ moves 2 10 2 ++
  [arrive (.createAgent headers ⟨none, "Answer.", [11], 5⟩)] ++ moves 3 20 7 ++
  [arrive (.startRun headers 22 asked)] ++ moves 4 30 10 ++ moves 5 40 operations

def service : List (Label (platform permissive config)) := serviceWith staticTool question 19

/-- Some event of some run has this type. -/
def logs (type : EventType) (pool : Pool (platform permissive config)) : Bool :=
  pool.shared.db.store.runs.any fun run => pool.shared.db.store.runTraces.any fun trace =>
    trace.tenantId == run.tenantId && trace.runId == run.id && trace.type == type

theorem of_logs {type : EventType} {pool : Pool (platform permissive config)} (logged : logs type pool = true) :
    ∃ run ∈ pool.shared.db.store.runs, ∃ trace ∈ pool.shared.db.store.runTraces,
      trace.tenantId = run.tenantId ∧ trace.runId = run.id ∧ trace.type = type := by
  simpa [logs, and_assoc] using logged

/-- The service leads to a run with tool calls and an end. -/
theorem served : ∃ events pool, Path (started permissive ⟨1, 1⟩) events pool ∧
    logs .toolExec pool = true ∧ logs .runEnd pool = true := by
  obtain ⟨events, pool, path, logged⟩ := (started permissive ⟨1, 1⟩).exists_path service
    (fun _ pool => logs .toolExec pool && logs .runEnd pool) (by decide +kernel)
  exact ⟨events, pool, path, Bool.and_eq_true_iff.mp logged⟩

end Scenario

open Scenario

/-! ## Statuses and columns -/

/-- The columns that a status admits. -/
structure RunRow.ColumnsFit (run : RunRow) : Prop where
  pending : run.status = .pending → run.startedAt = none ∧ run.finishedAt = none ∧ run.finalAnswer = none ∧
    run.errorReason = none
  running : run.status = .running → run.startedAt.isSome = true ∧ run.finishedAt = none ∧
    run.finalAnswer = none ∧ run.errorReason = none
  success : run.status = .success → run.startedAt.isSome = true ∧ run.finishedAt.isSome = true ∧
    run.finalAnswer.isSome = true ∧ run.errorReason = none
  failed : run.status = .failed → run.finishedAt.isSome = true ∧ run.errorReason.isSome = true ∧
    run.finalAnswer = none

theorem RunRow.Shows.columnsFit {run : RunRow} {stage : Stage} (shown : run.Shows stage) : run.ColumnsFit := by
  obtain ⟨status, finalAnswer, errorReason, started, finished⟩ := shown
  have absent {time : Option Timestamp} (unset : time.isSome = false) : time = none := by simpa using unset
  constructor <;> intro given <;> rw [given] at status <;> rw [finalAnswer, errorReason]
  · cases stage with
    | created | announced => exact ⟨absent started, absent finished, rfl, rfl⟩
    | settled rounds decision verdict | ended rounds decision verdict => cases verdict <;> cases status
    | _ => cases status
  · cases stage with
    | settled rounds decision verdict | ended rounds decision verdict => cases verdict <;> cases status
    | created | announced | refused | refusalLogged | refusalEnded => cases status
    | _ => exact ⟨started, absent finished, rfl, rfl⟩
  · cases stage with
    | settled rounds decision verdict | ended rounds decision verdict =>
      cases verdict with
      | failed reason => cases status
      | success answer => exact ⟨started, finished, rfl, rfl⟩
    | _ => cases status
  · cases stage with
    | settled rounds decision verdict | ended rounds decision verdict =>
      cases verdict with
      | failed reason => exact ⟨finished, rfl, rfl⟩
      | success answer => cases status
    | refused | refusalLogged | refusalEnded => exact ⟨finished, rfl, rfl⟩
    | _ => cases status

/-- What one step may do to a run. -/
structure RunRow.StepsTo (run later : RunRow) : Prop where
  request : run.SameRequest later
  status : later.status = run.status ∨ run.status.Next later.status
  frozen : run.status.terminal = true → later = run

theorem RunRow.Later.stepsTo {run later : RunRow} (since : run.Later later) : run.StepsTo later where
  request := since.sameRequest
  status := by
    rcases since with rfl | ⟨_, next⟩
    · exact .inl rfl
    · exact .inr next
  frozen := since.eq_of_terminal

/-- A closing statement sets these columns in the rows with this key. -/
inductive Closing (c : Choice) : Performed signature → (tenantId runId : Uuid) → (RunRow → RunRow) → Prop
  | refused {tenantId runId : Uuid} {errorReason : String} {count : ℕ} :
      Closing c ⟨.sql (.markRunFailed tenantId runId errorReason), .ok count⟩ tenantId runId fun run =>
        { run with status := .failed, errorReason := some errorReason, finishedAt := some c.now }
  | ended {tenantId runId : Uuid} {status : RunStatus} {finalAnswer errorReason : Option String} {count : ℕ} :
      Closing c ⟨.sql (.finalizeRun tenantId runId status finalAnswer errorReason),
          .ok count⟩ tenantId runId fun run =>
        { run with status, finalAnswer, errorReason, finishedAt := some c.now }

/-- One row of the table of runs is replaced, the one with this key. -/
def Store.ReplacesRun (s t : Store) (tenantId runId : Uuid) (update : RunRow → RunRow) : Prop :=
  ∃ before run after, s.runs = before ++ run :: after ∧ t.runs = before ++ update run :: after ∧
    run.tenantId = tenantId ∧ run.id = runId

theorem Closing.replaces {c : Choice} {db db' : Database} {statement : Statement}
    {answer : Except SqlxError statement.Row} {tenantId runId : Uuid} {update : RunRow → RunRow}
    (closing : Closing c ⟨.sql statement, answer⟩ tenantId runId update) (ran : Executed c db statement answer db')
    (once : ∀ count, affectedRuns ⟨.sql statement, answer⟩ = some count → count = 1) :
    db.store.ReplacesRun db'.store tenantId runId update := by
  have replaced (counted : db.store.runs.countP (fun row => row.tenantId == tenantId && row.id == runId) = 1)
      (changed : db'.store.runs = db.store.runs.map fun row =>
        if (row.tenantId == tenantId && row.id == runId) = true then update row else row) :
      db.store.ReplacesRun db'.store tenantId runId update := by
    obtain ⟨before, run, after, split, chosen, same⟩ := exists_replaced_of_countP update counted
    rw [Bool.and_eq_true, beq_iff_eq, beq_iff_eq] at chosen
    exact ⟨before, run, after, split, changed.trans same, chosen⟩
  cases closing with
  | refused =>
    cases ran with
    | markRunFailed => exact replaced (once _ rfl) rfl
    | select healthy answered => cases answered
  | ended =>
    cases ran with
    | finalizeRun => exact replaced (once _ rfl) rfl
    | select healthy answered => cases answered

/-- The columns of every run fit its status. A step keeps every run, changes its status along the
four transitions only, and leaves what was requested and every terminal row alone. An update of a
run by its key meets exactly one row and replaces this row only. -/
theorem run_lifecycle (path : Path (started lib config) events pool) :
    (∀ run ∈ pool.shared.db.store.runs, run.ColumnsFit) ∧
    ∀ event next, Step pool event next →
      (∀ run ∈ pool.shared.db.store.runs, (∃ later ∈ next.shared.db.store.runs, later.id = run.id) ∧
        ∀ later ∈ next.shared.db.store.runs, later.id = run.id → run.StepsTo later) ∧
      (∀ i c what count, event = .performed i c what → affectedRuns what = some count → count = 1) ∧
      ∀ i c what tenantId runId update, event = .performed i c what → Closing c what tenantId runId update →
        pool.shared.db.store.ReplacesRun next.shared.db.store tenantId runId update := by
  refine ⟨fun run present => ?_, fun event next step => ?_⟩
  · obtain ⟨stage, sound⟩ := (valid_of_started path).runs run present
    exact sound.columns.columnsFit
  have valid : Valid lib next.shared := valid_of_started (path.snoc step)
  have lawful := lawful_of_started path step
  have evolves := evolves_of_started path step
  have affected {i : ℕ} {c : Choice} {what : Performed signature} {count : ℕ} (happened : event = .performed i c what)
      (counted : affectedRuns what = some count) : count = 1 := by
    subst happened
    obtain ⟨_, thread, _, legal⟩ := lawful
    exact legal.affected count counted
  refine ⟨fun run present => ?_, fun i c what count => affected, ?_⟩
  · obtain ⟨later, found, since⟩ := evolves.runs run present
    refine ⟨⟨later, found, since.sameRequest.id⟩, fun other there id => ?_⟩
    rw [valid.unique found there (id.trans since.sameRequest.id.symm)]
    exact since.stepsTo
  · rintro i c ⟨op, answer⟩ tenantId runId update rfl closing
    cases op with
    | sql statement => exact closing.replaces (executed (execute_of_step step)) fun count => affected rfl
    | _ => cases closing

namespace Scenario

/-- The operation settles the served run. -/
def settlesServed : Event (platform permissive config) → Bool
  | .performed _ _ ⟨.sql (.finalizeRun 1 33 _ _ _), .ok _⟩ => true
  | _ => false

theorem of_settlesServed {event : Event (platform permissive config)} (checked : settlesServed event = true) :
    ∃ i c what update, event = .performed i c what ∧ Closing c what 1 33 update := by
  unfold settlesServed at checked
  split at checked
  · exact ⟨_, _, _, _, rfl, .ended⟩
  · cases checked

end Scenario

/-- The step in which the task finishes the served run. -/
theorem run_lifecycle_served : ∃ events pool event next, Path (started permissive ⟨1, 1⟩) events pool ∧
    Step pool event next ∧
    ∃ run ∈ pool.shared.db.store.runs, run.status = .running ∧ run.ColumnsFit ∧
      ∃ later ∈ next.shared.db.store.runs, later.id = run.id ∧ later.status = .success ∧ run.StepsTo later ∧
        ∃ i c what update, event = .performed i c what ∧ Closing c what 1 33 update ∧
          pool.shared.db.store.ReplacesRun next.shared.db.store 1 33 update := by
  obtain ⟨events, pool, path, checked⟩ := (started permissive ⟨1, 1⟩).exists_path (serviceWith staticTool question 15)
    (fun _ pool => (pool.next? (.act 5 (choice 55))).any fun outcome => settlesServed outcome.1 &&
      pool.shared.db.store.runs.any fun run => run.status == .running &&
        outcome.2.shared.db.store.runs.any fun later => later.id == run.id &&
          later.status == .success) (by decide +kernel)
  simp only [Option.any_eq_true, Prod.exists, Bool.and_eq_true, List.any_eq_true, beq_iff_eq] at checked
  obtain ⟨event, next, moved, settles, run, present, running, later, there, id, success⟩ := checked
  obtain ⟨i, c, what, update, happened, closing⟩ := of_settlesServed settles
  have step := Pool.next?_sound moved
  obtain ⟨columns, steps⟩ := run_lifecycle path
  obtain ⟨changes, _, closes⟩ := steps event next step
  exact ⟨events, pool, event, next, path, step, run, present, running, columns run present, later, there, id, success,
    (changes run present).2 later there id, i, c, what, update, happened, closing,
    closes i c what 1 33 update happened closing⟩

/-! ## Closing events -/

theorem Stage.of_mem_schedulerDecision {stage : Stage} {payload : Value}
    (member : (.schedulerDecision, payload) ∈ stage.events) :
    payload = Payload.accepted ∨ ∃ reason, payload = Payload.rejected reason := by
  cases stage with
  | refusalLogged reason => exact .inr ⟨reason, by simpa [events, announcement] using member⟩
  | refusalEnded reason => exact .inr ⟨reason, by simpa [events, announcement] using member⟩
  | admitted => exact .inl (by simpa [events, admission, announcement] using member)
  | looping rounds => exact .inl (by simpa using of_mem_loopEvents member)
  | calling rounds decision => exact .inl (by simpa using of_mem_loopEvents member)
  | settled rounds decision verdict => exact .inl (by simpa using of_mem_loopEvents member)
  | ended rounds decision verdict =>
    simp only [events, List.mem_append, List.mem_singleton, Prod.mk.injEq, reduceCtorEq,
      false_and, or_false] at member
    exact .inl (by simpa using of_mem_loopEvents member)
  | _ => simp [events, announcement] at member

/-- What a `run_end` event says about the row of its run. -/
structure RunRow.EndsWith (run : RunRow) (payload : Value) : Prop where
  status : payload.get "status" = some (.string run.status.asStr)
  terminal : run.status = .success ∨ run.status = .failed
  success : run.status = .success → ∃ answer, run.finalAnswer = some answer ∧
    payload.get "final_answer" = some (.string answer)
  failed : run.status = .failed → ∃ reason, run.errorReason = some reason ∧
    payload.get "error_reason" = some (.string reason)

theorem RunRow.Sound.endsWith {s : Store} {run : RunRow} {stage : Stage} {payload : Value}
    (sound : run.Sound lib s stage) (member : (.runEnd, payload) ∈ stage.events) : run.EndsWith payload := by
  have columns := sound.columns
  rcases Stage.of_mem_runEnd member with ⟨answer, status, given, rfl⟩ | ⟨reason, status, given, rfl⟩
  · rw [← columns.status] at status
    rw [← columns.finalAnswer] at given
    refine ⟨by rw [status]; rfl, .inl status, fun _ => ⟨answer, given, rfl⟩, fun failed => ?_⟩
    cases failed.symm.trans status
  · rw [← columns.status] at status
    rw [← columns.errorReason] at given
    refine ⟨by rw [status]; rfl, .inr status, fun success => ?_, fun _ => ⟨reason, given, rfl⟩⟩
    cases success.symm.trans status

/-- Closing events and rejections name the status, the answer and the reason that the row shows, and
a capacity error of `start_run` names the reason of the rejection. -/
theorem run_end_agrees (path : Path (started lib config) events pool) {run : RunRow}
    (present : run ∈ pool.shared.db.store.runs) {trace : TraceRow} (logged : trace ∈ pool.shared.db.store.runTraces)
    (tenantId : trace.tenantId = run.tenantId) (runId : trace.runId = run.id) :
    (trace.type = .runEnd → run.EndsWith trace.payload) ∧
    (trace.type = .schedulerDecision → trace.payload.get "decision" = some (.string "rejected") →
      ∃ reason, trace.payload.get "reason" = some (.string reason) ∧ run.errorReason = some reason ∧
        ∀ i headers agentId body fault request,
          pool.Returned i (.http (.startRun headers agentId body)) (.error fault) →
          createdRun? (doneBy i events) = some request → request.id = run.id →
          fault.errorCode ∈ capacityReasons → fault.errorCode = reason) := by
  obtain ⟨claims, holds⟩ := holds_of_started path
  obtain ⟨stage, sound⟩ := holds.valid.runs run present
  have member := sound.event_mem logged tenantId runId
  refine ⟨fun type => ?_, fun type rejected => ?_⟩
  · rw [type] at member
    exact sound.endsWith member
  rw [type] at member
  obtain accepted | ⟨reason, same⟩ := Stage.of_mem_schedulerDecision member
  · rw [accepted] at rejected
    simp [Payload.accepted, Value.get] at rejected
  rw [same] at member
  obtain ⟨status, given⟩ := Stage.of_mem_rejected member
  have shown : run.errorReason = some reason := sound.columns.errorReason.trans given
  refine ⟨reason, by rw [same]; rfl, shown, ?_⟩
  intro i headers agentId body fault request returned made id capacity
  obtain ⟨owned, _, _, returns⟩ := holds.returned returned
  obtain ⟨_, left, ⟨other, there, asked, otherSound⟩, outcome⟩ := returns.created request fault made rfl
  obtain rfl := holds.valid.unique present there (asked.id.trans id)
  rcases outcome with ⟨_, pending⟩ | ⟨_, other, _, named, agrees⟩
  · cases (sound.columns.status.trans status).symm.trans (otherSound.columns.status.trans pending)
  · have same := shown.symm.trans (otherSound.columns.errorReason.trans named)
    rw [agrees capacity, Option.some.inj same]

namespace Scenario

/-- Thread `i` has answered `start_run` with this error. -/
def refused {config : Config} (i : ℕ) (error : AppError) (pool : Pool (platform permissive config)) : Bool :=
  match pool.threads[i]? with
  | some ⟨.http (.startRun ..), _, .done (.error fault)⟩ => fault == error
  | _ => false

theorem of_refused {config : Config} {i : ℕ} {error : AppError} {pool : Pool (platform permissive config)}
    (done : refused i error pool = true) :
    ∃ headers agentId body, pool.Returned i (.http (.startRun headers agentId body)) (.error error) := by
  rw [refused] at done
  split at done
  · next headers agentId body owned fault present =>
    rw [beq_iff_eq] at done
    exact ⟨headers, agentId, body, owned, done ▸ present⟩
  · cases done

/-- A server without global permits rejects a run. -/
def rejection : List (Label (platform permissive ⟨0, 1⟩)) :=
  onboarding ++ [arrive (.createAgent headers ⟨none, "Answer.", [], 5⟩)] ++ moves 2 20 5 ++
  [arrive (.startRun headers 22 question)] ++ moves 3 30 10

/-- The request of thread `i` has created a run that was rejected. -/
def rejected {config : Config} (i : ℕ) (events : List (Event (platform permissive config)))
    (pool : Pool (platform permissive config)) : Bool :=
  (createdRun? (doneBy i events)).any fun request => pool.shared.db.store.runs.any fun run => request.id == run.id &&
    pool.shared.db.store.runTraces.any fun trace => trace.tenantId == run.tenantId && trace.runId == run.id &&
      trace.type == .schedulerDecision && (trace.payload.get "decision").bind Value.asStr == some "rejected"

end Scenario

/-- The end of the served run agrees with its row. Without permits the rejection agrees with the row and with the
answer. -/
theorem run_end_agrees_served : (∃ events pool, Path (started permissive ⟨1, 1⟩) events pool ∧
    ∃ run ∈ pool.shared.db.store.runs, ∃ trace ∈ pool.shared.db.store.runTraces, trace.runId = run.id ∧
      trace.type = .runEnd ∧ run.EndsWith trace.payload) ∧
    ∃ events pool, Path (started permissive ⟨0, 1⟩) events pool ∧
      ∃ run ∈ pool.shared.db.store.runs, ∃ trace ∈ pool.shared.db.store.runTraces, trace.runId = run.id ∧
        trace.type = .schedulerDecision ∧ ∃ headers agentId body,
          pool.Returned 3 (.http (.startRun headers agentId body)) (.error .schedulerCapacityExceeded) ∧
          trace.payload.get "reason" = some (.string "scheduler_capacity_exceeded") ∧
          run.errorReason = some "scheduler_capacity_exceeded" := by
  refine ⟨?_, ?_⟩
  · obtain ⟨events, pool, path, _, logged⟩ := served
    obtain ⟨run, present, trace, there, tenantId, runId, type⟩ := of_logs logged
    exact ⟨events, pool, path, run, present, trace, there, runId, type,
      (run_end_agrees path present there tenantId runId).1 type⟩
  · obtain ⟨events, pool, path, checked⟩ := (started permissive ⟨0, 1⟩).exists_path rejection
      (fun events pool => refused 3 .schedulerCapacityExceeded pool && rejected 3 events pool) (by decide +kernel)
    simp only [rejected, Bool.and_eq_true, Option.any_eq_true, List.any_eq_true, beq_iff_eq] at checked
    obtain ⟨answered, request, made, run, present, id, trace, there, ⟨⟨tenantId, runId⟩, type⟩, decision⟩ := checked
    obtain ⟨headers, agentId, body, returned⟩ := of_refused answered
    obtain ⟨value, decided, shown⟩ := Option.bind_eq_some_iff.mp decision
    have decided : trace.payload.get "decision" = some (.string "rejected") := by
      rw [decided, Value.asStr_eq_some.mp shown]
    obtain ⟨reason, logged, stored, agrees⟩ := (run_end_agrees path present there tenantId runId).2 type decided
    obtain rfl := agrees 3 headers agentId body _ request returned made id List.mem_cons_self
    exact ⟨events, pool, path, run, present, trace, there, runId, type, headers, agentId,
      body, returned, logged, stored⟩

/-! ## Tool calls -/

theorem Stage.of_mem_roundEvents {before : ℕ} {rounds : List Round} {payload : Value}
    (member : (.toolExec, payload) ∈ roundEvents before rounds) :
    ∃ i round, rounds[i]? = some round ∧
      payload = Payload.toolExec round.tool (iterationArguments (before + i)) round.result := by
  induction rounds generalizing before with
  | nil => simp [roundEvents] at member
  | cons round rest ih =>
    simp only [roundEvents, List.mem_cons, Prod.mk.injEq, reduceCtorEq, false_and, true_and, false_or] at member
    rcases member with rfl | later
    · exact ⟨0, round, rfl, rfl⟩
    · obtain ⟨i, other, found, same⟩ := ih later
      exact ⟨i + 1, other, found, by rw [same, show before + 1 + i = before + (i + 1) by omega]⟩

theorem Stage.of_mem_toolExec {stage : Stage} {payload : Value} (member : (.toolExec, payload) ∈ stage.events) :
    ∃ i round, stage.rounds[i]? = some round ∧
      payload = Payload.toolExec round.tool (iterationArguments i) round.result := by
  have of_loop {rounds : List Round} {decision : Option LlmDecision}
      (member : (.toolExec, payload) ∈ loopEvents rounds decision) :
      ∃ i round, rounds[i]? = some round ∧
        payload = Payload.toolExec round.tool (iterationArguments i) round.result := by
    simp only [loopEvents, List.mem_append] at member
    rcases member with (first | round) | last
    · simp [opening, admission, announcement] at first
    · obtain ⟨i, round, found, same⟩ := of_mem_roundEvents round
      exact ⟨i, round, found, by rw [same, Nat.zero_add]⟩
    · simp [decisionEvents] at last
  cases stage with
  | looping rounds => exact of_loop member
  | calling rounds decision => exact of_loop member
  | settled rounds decision verdict => exact of_loop member
  | ended rounds decision verdict =>
    simp only [events, List.mem_append, List.mem_singleton, Prod.mk.injEq, reduceCtorEq,
      false_and, or_false] at member
    exact of_loop member
  | _ => simp [events, announcement, admission] at member

/-- Every executed tool call names a tool of the tenant that is bound to the agent of the run. The schema of
the tool, as it is read from the row, accepts the arguments, and the result is its static response, read likewise. -/
theorem tool_exec_authorised (path : Path (started lib config) events pool) {run : RunRow}
    (present : run ∈ pool.shared.db.store.runs) {trace : TraceRow} (logged : trace ∈ pool.shared.db.store.runTraces)
    (tenantId : trace.tenantId = run.tenantId) (runId : trace.runId = run.id) (type : trace.type = .toolExec) :
    ∃ tool ∈ pool.shared.db.store.tools, ∃ arguments result,
      trace.payload = .object [("tool_id", .uuid tool.id), ("tool_name", .string tool.name),
        ("arguments", arguments), ("result", result)] ∧
      tool.tenantId = run.tenantId ∧
      (∃ binding ∈ pool.shared.db.store.agentTools, binding.tenantId = run.tenantId ∧
        binding.agentId = run.agentId ∧ binding.toolId = tool.id) ∧
      (∃ isValid, lib.compile (lib.decodeJson tool.inputSchema) = some isValid ∧ isValid arguments = true) ∧
      tool.mockHandler.get "type" = some (.string "static") ∧
      ∃ response, tool.mockHandler.get "response" = some response ∧ result = lib.decodeJson response := by
  obtain ⟨stage, sound⟩ := (valid_of_started path).runs run present
  have member := sound.event_mem logged tenantId runId
  rw [type] at member
  obtain ⟨i, round, found, same⟩ := Stage.of_mem_toolExec member
  obtain ⟨⟨tool, there, owner, id, name, accepts, static, response⟩, binding, bound, owned, agent, called⟩ :=
    sound.authorised i round found
  refine ⟨tool, there, iterationArguments i, round.result, ?_, owner,
    ⟨binding, bound, owned, agent, called.trans id.symm⟩, accepts, static, response⟩
  rw [same, id, name]
  rfl

theorem tool_exec_authorised_served : ∃ events pool, Path (started permissive ⟨1, 1⟩) events pool ∧
    ∃ run ∈ pool.shared.db.store.runs, ∃ trace ∈ pool.shared.db.store.runTraces, trace.type = .toolExec ∧
      ∃ tool ∈ pool.shared.db.store.tools, tool.tenantId = run.tenantId ∧
        trace.payload.get "tool_id" = some (.uuid tool.id) ∧
        (∃ binding ∈ pool.shared.db.store.agentTools, binding.agentId = run.agentId ∧ binding.toolId = tool.id) ∧
        ∃ response, tool.mockHandler.get "response" = some response ∧
          trace.payload.get "result" = some (permissive.decodeJson response) := by
  obtain ⟨events, pool, path, logged, _⟩ := served
  obtain ⟨run, present, trace, there, tenantId, runId, type⟩ := of_logs logged
  obtain ⟨tool, member, arguments, result, payload, owner, ⟨binding, bound, _, agent, called⟩,
      _, _, response, given, rfl⟩ :=
    tool_exec_authorised path present there tenantId runId type
  refine ⟨events, pool, path, run, present, trace, there, type, tool, member, owner, ?_,
    ⟨binding, bound, agent, called⟩, response, given, ?_⟩
  · rw [payload]
    rfl
  · rw [payload]
    rfl

/-- The response is a float that `POST /tools` reads from `1e-24`. -/
def preciseTool : CreateToolRequest :=
  { staticTool with
    mockHandler := .object [("type", .string "static"), ("response", .number 10000000000000001 (-40))] }

def Value.isNumber (mantissa exponent : Int) : Value → Bool
  | .number m e => m == mantissa && e == exponent
  | _ => false

theorem Value.of_isNumber {value : Value} {mantissa exponent : Int} (same : value.isNumber mantissa exponent = true) :
    value = .number mantissa exponent := by
  cases value <;> simp_all [isNumber]

/-- The only tool of the tenant responds with one number, and a call of it is logged with another result. -/
theorem tool_exec_rounded : ∃ events pool, Path (started permissive ⟨1, 1⟩) events pool ∧
    ∃ run ∈ pool.shared.db.store.runs, ∃ trace ∈ pool.shared.db.store.runTraces,
      trace.tenantId = run.tenantId ∧ trace.runId = run.id ∧ trace.type = .toolExec ∧
      trace.payload.get "result" = some (.number 1 (-24)) ∧
      ∀ tool ∈ pool.shared.db.store.tools, tool.mockHandler.get "response" = some
      (.number 10000000000000001 (-40)) := by
  obtain ⟨events, pool, path, checked⟩ :=
    (started permissive ⟨1, 1⟩).exists_path (serviceWith preciseTool question 19)
    (fun _ pool => (pool.shared.db.store.runs.any fun run => pool.shared.db.store.runTraces.any fun trace =>
        trace.tenantId == run.tenantId && trace.runId == run.id && trace.type == .toolExec &&
          (trace.payload.get "result").any (Value.isNumber 1 (-24))) &&
      pool.shared.db.store.tools.all fun tool =>
        (tool.mockHandler.get "response").any (Value.isNumber 10000000000000001 (-40))) (by decide +kernel)
  simp only [Bool.and_eq_true, List.any_eq_true, List.all_eq_true, beq_iff_eq, Option.any_eq_true] at checked
  obtain ⟨⟨run, present, trace, there, ⟨⟨tenantId, runId⟩, type⟩, result, given, rounded⟩, stored⟩ := checked
  refine ⟨events, pool, path, run, present, trace, there, tenantId, runId, type, ?_, fun tool member => ?_⟩
  · rw [given, Value.of_isNumber rounded]
  · obtain ⟨response, held, same⟩ := stored tool member
    rw [held, Value.of_isNumber same]

end AgentPlatform
