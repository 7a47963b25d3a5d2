import AgentPlatform.Guarantees.Course
import AgentPlatform.Lifecycle.Grammar
import AgentPlatform.Ownership.Writers

/-! # The trace log

A trace is the sequence of the successful appends to its run, numbered from one. Appending computes
the next number without a lock; that is enough because a run has one writer at a time. A thread that
is about to append owns the run: it would still own it if all its further statements failed.
-/

set_option autoImplicit false

namespace AgentPlatform

open Interleaving Relational Database Scenario

variable {lib : Libraries} {config : Config} {events : List (Event (platform lib config))}
  {pool next : Pool (platform lib config)} {event : Event (platform lib config)} {tenantId runId : Uuid} {i : ℕ}

/-! ## Threads that fail to the end -/

/-- Every operation can be executed without a change to the committed rows. -/
theorem Op.exec_failing (op : Op) (permits : List SemaphoreRef) (w : World) :
    ∃ c effect, op.exec config Task.executeRun c permits w = some effect ∧ effect.shared.db.store = w.db.store := by
  have given {c : Choice} (runs : (op.exec config Task.executeRun c permits w).isSome = true)
      (other : ∀ statement, op ≠ .sql statement) :
      ∃ c effect, op.exec config Task.executeRun c permits w = some effect ∧ effect.shared.db.store = w.db.store := by
    obtain ⟨effect, ran⟩ := Option.isSome_iff_exists.mp runs
    exact ⟨c, effect, ran, Op.exec_store other ran⟩
  by_cases sql : ∃ statement, op = .sql statement
  · obtain ⟨statement, rfl⟩ := sql
    exact ⟨{ fail := true }, _, rfl, lose_store⟩
  have other (statement : Statement) (same : op = .sql statement) : False := sql ⟨statement, same⟩
  cases op with
  | sql statement => exact absurd ⟨statement, rfl⟩ sql
  | sampleAlphanumeric count =>
    have drawn : (List.replicate count 'a').all isAlphanumeric = true := by simp [isAlphanumeric]
    exact given (c := { chars := List.replicate count 'a' }) (by simp [Op.exec, drawn]) other
  | tryAcquireOwned semaphore | dropPermit semaphore =>
    refine given (c := {}) ?_ other
    simp only [Op.exec]
    split <;> rfl
  | rollback tx | getTenantSemaphore owner | spawn owner runId | generateSalt => exact given (c := {}) rfl other

/-- The thread is about to append this event. -/
def Appending (pool : Pool (platform lib config)) (i : ℕ) (tenantId runId : Uuid) (eventType : EventType)
    (payload : Value) : Prop :=
  ∃ task owned rest, pool.threads[i]? = some
    ⟨task, owned, .call (.sql (.appendEvent tenantId runId eventType payload)) rest⟩

/-- The event that could not be appended. -/
abbrev lost (tenantId runId : Uuid) (eventType : EventType) (payload : Value) : Performed signature :=
  ⟨.sql (.appendEvent tenantId runId eventType payload), .error .unavailable⟩

/-- A thread can lose the event that it is about to append, and then return without any change. -/
theorem Appending.returns {eventType : EventType} {payload : Value}
    (appending : Appending pool i tenantId runId eventType payload) :
    ∃ more last task result, Path pool more last ∧ last.Returned i task result ∧
      lost tenantId runId eventType payload ∈ doneBy i more ∧ last.shared.db.store = pool.shared.db.store ∧
      ∀ j ≠ i, doneBy j more = [] ∧ ∀ thread, pool.threads[j]? = some thread → last.threads[j]? = some thread := by
  obtain ⟨task, owned, rest, present⟩ := appending
  let effect : Effect signature (List SemaphoreRef) World Task
      (.sql (.appendEvent tenantId runId eventType payload)) :=
    ⟨.error .unavailable, owned, pool.shared, none⟩
  have failing : Op.exec config Task.executeRun { fail := true }
      (.sql (.appendEvent tenantId runId eventType payload)) owned pool.shared = some effect := rfl
  have step := @Step.act (platform lib config) pool i task owned _ rest { fail := true } effect present failing
  obtain ⟨more, last, result, path, returned, same, others⟩ := Pool.completes
    (R := fun before after : World => after.db.store = before.db.store) (fun _ => rfl)
      (fun _ _ _ first second => second.trans first)
    (fun op permits w => Op.exec_failing op permits w) (Pool.advance_self present)
  refine ⟨_, last, task, result, (Path.single step).append path, returned, ?_, same, fun j other => ⟨?_, ?_⟩⟩
  · rw [List.singleton_append, doneBy_cons_self]
    exact List.mem_cons_self
  · rw [doneBy_append, doneBy_performed, if_neg (Ne.symm other), (others j other).1]
    rfl
  · exact fun thread there => (others j other).2 thread (Pool.advance_other (Ne.symm other) there)

/-- The run that a request inserts belongs to the tenant of the statement. -/
theorem tenant_of_inserted (path : Path (started lib config) events pool) {request : RunRow}
    (inserted : Inserted tenantId request (doneBy i events)) : request.tenantId = tenantId := by
  obtain ⟨_, tx, agentId, messages, key, done⟩ := inserted
  obtain ⟨c, member⟩ := mem_doneBy.mp done
  obtain ⟨before, after, rfl⟩ := List.append_of_mem member
  obtain ⟨middle, next, _, step, _⟩ := path.cut
  obtain ⟨createdAt, row⟩ := (executed (execute_of_step step)).inserted_row
  rw [row]

/-- A thread that has returned after it lost an event owns the run of the event. -/
theorem owner_of_lost (path : Path (started lib config) events pool) {claims : ℕ → Set Token}
    (holds : (ownership lib config).Holds events pool claims) {task : Task} {result : Except AppError Response}
    (returned : pool.Returned i task result) {eventType : EventType} {payload : Value}
    (failing : lost tenantId runId eventType payload ∈ doneBy i events) :
    Token.run runId ∈ claims i ∧ payload.isObject = true ∧
      ∃ run ∈ pool.shared.db.store.runs, run.tenantId = tenantId ∧ run.id = runId := by
  obtain ⟨owned, present, returns⟩ := holds.returned returned
  have follows := (path.follows rfl).1 i _ present
  cases task with
  | executeRun owner run =>
    obtain ⟨_, claim, request, stage, id, tenant, ⟨row, there, asked, _⟩, _⟩ := returns
    rcases (follows.uses uses_task).1 _ failing with ⟨rfl, rfl, object⟩ | ⟨semaphore, absurd⟩
    · exact ⟨claim ▸ Set.mem_singleton _, object, row, there, asked.tenantId.trans tenant, asked.id.trans id⟩
    · cases absurd
  | http request =>
    by_cases starts : ∃ headers agentId body, request = .startRun headers agentId body
    · obtain ⟨headers, agentId, body, rfl⟩ := starts
      obtain ⟨c, member⟩ := mem_doneBy.mp failing
      obtain ⟨before, after, rfl⟩ := List.append_of_mem member
      obtain ⟨object, request, inserted, rfl⟩ := path.along_performed rfl present along_startRunHandler _ _ _ _ rfl
      have loud : Loud
          (doneBy i (before ++ .performed i c (lost tenantId request.id eventType payload) :: after)) result :=
        path.along rfl present along_startRunHandler
      have kept : Inserted tenantId request
          (doneBy i (before ++ .performed i c (lost tenantId request.id eventType payload) :: after)) := by
        rw [doneBy_append]
        exact inserted.append _
      cases result with
      | ok response =>
        have quiet := loud response rfl
        simp [appendFailed] at quiet
      | error fault =>
        obtain ⟨owns, stage, ⟨row, there, asked, _⟩, _⟩ := returns.2.created request fault kept.1 rfl
        exact ⟨owns, object, row, there, asked.tenantId.trans (tenant_of_inserted path kept), asked.id⟩
    · have quiet : (request.handler lib).Uses fun op : Op => ¬ op.Appends :=
        uses_handler_quiet fun headers agentId body same => starts ⟨headers, agentId, body, same⟩
      exact absurd ⟨_, _, _, _, rfl⟩ ((follows.uses quiet).1 _ failing)

/-- The run of an event exists when the event is about to be appended. -/
theorem Appending.run (path : Path (started lib config) events pool) {eventType : EventType} {payload : Value}
    (appending : Appending pool i tenantId runId eventType payload) :
    payload.isObject = true ∧ ∃ run ∈ pool.shared.db.store.runs, run.tenantId = tenantId ∧ run.id = runId := by
  obtain ⟨more, last, task, result, later, returned, failing, same, _⟩ := appending.returns
  obtain ⟨claims, holds⟩ := holds_of_started (path.append later)
  have known : lost tenantId runId eventType payload ∈ doneBy i (events ++ more) := by
    rw [doneBy_append]
    exact List.mem_append_right _ failing
  rw [← same]
  exact (owner_of_lost (path.append later) holds returned known).2

/-- No two threads are about to append to the same run. -/
theorem Appending.unique (path : Path (started lib config) events pool) {other : Uuid} {j : ℕ}
    {eventType eventType' : EventType} {payload payload' : Value}
    (left : Appending pool i tenantId runId eventType payload)
    (right : Appending pool j other runId eventType' payload') : i = j := by
  by_contra different
  obtain ⟨more, middle, task, result, first, returned, failing, _, others⟩ := left.returns
  have waiting : Appending middle j other runId eventType' payload' := by
    obtain ⟨task, owned, rest, present⟩ := right
    exact ⟨task, owned, rest, (others j (Ne.symm different)).2 _ present⟩
  obtain ⟨more', last, task', result', second, returned', failing', _, _⟩ := waiting.returns
  have whole := (path.append first).append second
  obtain ⟨claims, holds⟩ := holds_of_started whole
  have known : lost tenantId runId eventType payload ∈ doneBy i (events ++ more ++ more') := by
    rw [doneBy_append, doneBy_append]
    exact List.mem_append_left _ (List.mem_append_right _ failing)
  have known' : lost other runId eventType' payload' ∈ doneBy j (events ++ more ++ more') := by
    rw [doneBy_append]
    exact List.mem_append_right _ failing'
  have mine := (owner_of_lost whole holds (second.returned returned) known).1
  have theirs := (owner_of_lost whole holds returned' known').1
  obtain ⟨owned, there⟩ := second.returned returned
  obtain ⟨owned', there'⟩ := returned'
  exact holds.disjoint i (List.getElem?_eq_some_iff.mp there).1 j (List.getElem?_eq_some_iff.mp there').1 different
    _ mine theirs

/-! ## The grammar -/

/-- A trace of a run of an agent with this many iterations: a prefix of a word, with its closing event,
its final answer and its exhaustion where they belong. -/
structure Grammar.Fits (maxIterations : ℕ) (trace : List (EventType × Value)) : Prop where
  word : ∃ word, Word maxIterations word ∧ trace <+: word
  closing : ∀ before payload after, trace = before ++ (.runEnd, payload) :: after → after = [] ∧
    (payload.get "error_reason" = some maxIterationsExceeded → toolExecs before = maxIterations)
  answering : ∀ before call after, trace = before ++ (.llmCall, call) :: after →
    (∃ decision, call.get "decision" = some decision ∧ decision.get "type" = some (.string "final_answer")) →
    toolExecs before = 2
  types : ∀ event ∈ trace, event.1 ≠ .retry

theorem Grammar.Fits.of_word {maxIterations : ℕ} {trace word : List (EventType × Value)}
    (complete : Word maxIterations word) (starts : trace <+: word) : Fits maxIterations trace := by
  obtain ⟨more, rfl⟩ := starts
  refine ⟨⟨_, complete, List.prefix_append ..⟩, ?_, ?_, fun event member =>
    complete.types (List.mem_append_left _ member)⟩
  · rintro before payload after rfl
    have closing := complete.closing (List.append_assoc before _ more)
    exact ⟨(List.append_eq_nil_iff.mp closing.1).1, closing.2⟩
  · rintro before call after rfl
    exact complete.answering (List.append_assoc before _ more)

/-- The trace of a run is a prefix of a word for the agent of the run. -/
theorem exists_word (path : Path (started lib config) events pool) {run : RunRow}
    (present : run ∈ pool.shared.db.store.runs) :
    ∃ agent, pool.shared.db.store.findAgent run.tenantId run.agentId = some agent ∧
      0 < agent.maxIterations ∧ agent.maxIterations ≤ 50 ∧ ∃ word, Grammar.Word agent.maxIterations.toNat word ∧
        (pool.shared.db.store.traceRows run.tenantId run.id).map TraceRow.event <+: word := by
  have valid : Valid lib pool.shared := valid_of_started path
  obtain ⟨stage, sound⟩ := valid.runs run present
  obtain ⟨agent, there, _, id, reached⟩ := sound.reachable
  obtain ⟨found, looked⟩ := valid.findAgent present
  obtain ⟨member, _, sameId⟩ := Store.findAgent_some looked
  obtain rfl := valid.wellFormed.agents.ids.committed.eq there member rfl (congrArg some (sameId.trans id.symm))
  obtain ⟨positive, most⟩ := valid.wellFormed.agents.iterations agent (mem_everything.mpr (.inl there))
  rw [sound.events]
  exact ⟨agent, looked, positive, most, (Stage.Reachable.within reached).prefix_word⟩

/-- The trace of every run follows the grammar, whatever has happened. -/
theorem trace_grammar (path : Path (started lib config) events pool) {run : RunRow}
    (present : run ∈ pool.shared.db.store.runs) :
    ∃ agent, pool.shared.db.store.findAgent run.tenantId run.agentId = some agent ∧ 0 < agent.maxIterations ∧
      Grammar.Fits agent.maxIterations.toNat
        ((pool.shared.db.store.traceRows run.tenantId run.id).map TraceRow.event) := by
  obtain ⟨agent, found, positive, _, word, complete, starts⟩ := exists_word path present
  exact ⟨agent, found, positive, .of_word complete starts⟩

/-- The trace of a run that calls its tool twice and answers. -/
theorem trace_grammar_served : ∃ events pool, Path (started permissive ⟨1, 1⟩) events pool ∧
    ∃ run ∈ pool.shared.db.store.runs,
      (pool.shared.db.store.traceRows run.tenantId run.id).map TraceRow.type =
      [.runCreated, .schedulerDecision, .runStarted,
        .llmCall, .toolExec, .llmCall, .toolExec, .llmCall, .runEnd] ∧
      Grammar.Fits 5 ((pool.shared.db.store.traceRows run.tenantId run.id).map TraceRow.event) := by
  obtain ⟨events, pool, path, checked⟩ := (started permissive ⟨1, 1⟩).exists_path service
    (fun _ pool => pool.shared.db.store.runs.any fun run =>
      (pool.shared.db.store.findAgent run.tenantId run.agentId).any (·.maxIterations == 5) &&
        (pool.shared.db.store.traceRows run.tenantId run.id).map TraceRow.type == [.runCreated, .schedulerDecision,
          .runStarted, .llmCall, .toolExec, .llmCall, .toolExec, .llmCall, .runEnd]) (by decide +kernel)
  simp only [List.any_eq_true, Bool.and_eq_true, beq_iff_eq] at checked
  obtain ⟨run, present, iterations, types⟩ := checked
  obtain ⟨agent, found, _, fits⟩ := trace_grammar path present
  rw [found, Option.any_some, beq_iff_eq] at iterations
  rw [iterations] at fits
  exact ⟨events, pool, path, run, present, types, fits⟩

/-! ## The log -/

/-- The event that was appended, with the tenant and the run. -/
def appended? : Performed signature → Option (Uuid × Uuid × EventType × Value)
  | ⟨.sql (.appendEvent tenantId runId eventType payload), .ok ()⟩ => some (tenantId, runId, eventType, payload)
  | _ => none

/-- What an event of the server appends to this run. -/
def appendedBy (tenantId runId : Uuid) : Event (platform lib config) → Option (EventType × Value)
  | .arrived _ => none
  | .performed _ _ what => (appended? what).bind fun (owner, run, entry) =>
      if owner = tenantId ∧ run = runId then some entry else none

/-- The successful appends to a run, in the order in which they were made. -/
def appendedTo (tenantId runId : Uuid) (events : List (Event (platform lib config))) : List (EventType × Value) :=
  events.filterMap (appendedBy tenantId runId)

theorem appended?_of_sql (statement : Statement) (answer : Except SqlxError statement.Row) :
    appended? ⟨.sql statement, answer⟩ = none ∨ ∃ tenantId runId eventType payload,
      (⟨statement, answer⟩ : (s : Statement) × Except SqlxError s.Row) =
        ⟨.appendEvent tenantId runId eventType payload, .ok ()⟩ := by
  cases statement with
  | appendEvent tenantId runId eventType payload =>
    cases answer with
    | error fault => exact .inl rfl
    | ok done => exact .inr ⟨tenantId, runId, eventType, payload, rfl⟩
  | _ => exact .inl rfl

/-- What is appended is appended by a statement. -/
theorem event_of_appendedTo {entry : EventType × Value} (member : entry ∈ appendedTo tenantId runId events) :
    ∃ i c, .performed i c ⟨.sql (.appendEvent tenantId runId entry.1 entry.2), .ok ()⟩ ∈ events := by
  obtain ⟨event, there, appends⟩ := List.mem_filterMap.mp member
  cases event with
  | arrived task => cases appends
  | performed i c what =>
    obtain ⟨op, answer⟩ := what
    cases op with
    | sql statement =>
      rcases appended?_of_sql statement answer with quiet | ⟨owner, run, eventType, payload, happened⟩
      · change (appended? ⟨.sql statement, answer⟩).bind _ = some entry at appends
        rw [quiet] at appends
        cases appends
      · cases happened
        obtain ⟨⟨rfl, rfl⟩, same⟩ := Option.ite_none_right_eq_some.mp appends
        cases same
        exact ⟨i, c, there⟩
    | _ => cases appends

/-- What a statement has appended is in the trace. -/
theorem mem_appendedTo {entry : EventType × Value}
    (done : ⟨.sql (.appendEvent tenantId runId entry.1 entry.2), .ok ()⟩ ∈ doneBy i events) :
    entry ∈ appendedTo tenantId runId events := by
  obtain ⟨c, member⟩ := mem_doneBy.mp done
  exact List.mem_filterMap.mpr ⟨_, member, by simp [appendedBy, appended?]⟩

/-- One step adds to a trace what it appends. -/
theorem traceRows_of_step (step : Step pool event next) (tenantId runId : Uuid) :
    (appendedBy tenantId runId event = none ∧
      next.shared.db.store.traceRows tenantId runId = pool.shared.db.store.traceRows tenantId runId) ∨
    ∃ row, appendedBy tenantId runId event = some row.event ∧
      next.shared.db.store.traceRows tenantId runId = pool.shared.db.store.traceRows tenantId runId ++ [row] := by
  cases event with
  | arrived task =>
    cases step
    exact .inl ⟨rfl, rfl⟩
  | performed i c what =>
    obtain ⟨op, answer⟩ := what
    by_cases sql : ∃ statement, op = .sql statement
    · obtain ⟨statement, rfl⟩ := sql
      have ran := executed (execute_of_step step)
      rcases traceRows_executed ran tenantId runId with same | ⟨eventType, payload, happened, grown⟩
      · refine .inl ⟨?_, same⟩
        rcases appended?_of_sql statement answer with quiet | ⟨owner, run, eventType, payload, happened⟩
        · change (appended? ⟨.sql statement, answer⟩).bind _ = none
          rw [quiet]
          rfl
        · cases happened
          by_cases mine : owner = tenantId ∧ run = runId
          · obtain ⟨rfl, rfl⟩ := mine
            have grown := traceRows_appendEvent ran
            rw [same] at grown
            simp at grown
          · simp [appendedBy, appended?, mine]
      · cases happened
        exact .inr ⟨_, by simp [appendedBy, appended?, TraceRow.event], grown⟩
    · refine .inl ⟨?_, ?_⟩
      · cases op with
        | sql statement => exact absurd ⟨statement, rfl⟩ sql
        | _ => rfl
      · rcases store_of_step step with same | ⟨_, _, statement, _, happened, _⟩
        · rw [same]
        · cases happened
          exact absurd ⟨statement, rfl⟩ sql

/-- A trace is what has been appended to it. -/
theorem trace_of_appended (path : Path (started lib config) events pool) (tenantId runId : Uuid) :
    (pool.shared.db.store.traceRows tenantId runId).map TraceRow.event = appendedTo tenantId runId events := by
  induction path with
  | nil => rfl
  | @snoc middle last events event path step ih =>
    rw [appendedTo, List.filterMap_append]
    rcases traceRows_of_step step tenantId runId with ⟨quiet, same⟩ | ⟨row, appends, grown⟩
    · rw [same, ih, List.filterMap_cons_none quiet]
      simp [appendedTo]
    · rw [grown, List.map_append, ih, List.filterMap_cons_some appends]
      rfl

/-- The numbers from one on. -/
def numbersFromOne (n : ℕ) : List Int := (List.range n).map fun k : ℕ => (k : Int) + 1

theorem Store.Numbered.numbers {s : Store} (numbered : s.Numbered) (tenantId runId : Uuid) :
    (s.traceRows tenantId runId).map TraceRow.seq = numbersFromOne (s.traceRows tenantId runId).length := by
  apply List.ext_getElem (by simp [numbersFromOne])
  intro k bound _
  rw [List.getElem_map, numbered tenantId runId k _ (List.getElem?_eq_getElem (by simpa using bound))]
  simp [numbersFromOne]

/-- The next number of a trace fits into its column. -/
theorem nextSeq_lt (path : Path (started lib config) events pool) {run : RunRow}
    (present : run ∈ pool.shared.db.store.runs) : pool.shared.db.store.nextSeq run.tenantId run.id < 2147483648 := by
  obtain ⟨agent, _, _, most, word, complete, starts⟩ := exists_word path present
  have short := starts.length_le.trans complete.length_le
  rw [List.length_map] at short
  rw [(numbered_of_started path).nextSeq]
  omega

/-- A step is taken by a thread that waits for its answer. -/
theorem present_of_step {c : Choice} {what : Performed signature} (step : Step pool (.performed i c what) next) :
    ∃ task owned rest, pool.threads[i]? = some ⟨task, owned, .call what.op rest⟩ := by
  cases step with
  | act present ran => exact ⟨_, _, _, present⟩

/-- The only reasons why an event is not appended. -/
theorem appendEvent_error (path : Path (started lib config) events pool) {c : Choice} {eventType : EventType}
    {payload : Value} {error : SqlxError}
    (step : Step pool (.performed i c ⟨.sql (.appendEvent tenantId runId eventType payload), .error error⟩) next) :
    (error = .unavailable ∧ c.fail = true) ∨
      (error = .database .runTracesPkey ∧ ∃ row ∈ pool.shared.db.store.runTraces, row.id = c.id) := by
  have appending : Appending pool i tenantId runId eventType payload := present_of_step step
  obtain ⟨object, run, present, rfl, rfl⟩ := appending.run path
  have ran := execute_of_step step
  generalize next.shared.db = db at ran
  simp only [execute] at ran
  split at ran
  · next failing =>
    cases ran
    exact .inl ⟨rfl, failing⟩
  · simp only [appendEvent, Option.some.injEq] at ran
    rw [if_neg (not_not.mpr (nextSeq_lt path present)), if_neg (by simp [object])] at ran
    split_ifs at ran with taken clash orphan
    · cases ran
      exact .inr ⟨rfl, by simpa using taken⟩
    · obtain ⟨row, member, same⟩ := List.any_eq_true.mp clash
      obtain ⟨k, found⟩ := List.getElem?_of_mem member
      have bound := (List.getElem?_eq_some_iff.mp found).1
      have numbered := numbered_of_started path
      have seq := numbered run.tenantId run.id k row found
      have last : pool.shared.db.store.nextSeq run.tenantId run.id = _ := numbered.nextSeq
      rw [eq_of_beq same] at seq
      omega
    · simp only [Bool.not_eq_eq_eq_not, Bool.not_true, List.any_eq_false, Bool.and_eq_true,
        beq_iff_eq, not_and] at orphan
      exact absurd rfl (orphan run present rfl)
    · cases ran

/-- What `get_trace` answers is the log as it was when its statement was executed. -/
theorem trace_of_response (path : Path (started lib config) events pool) {headers : HeaderMap}
    {response : List TraceEventResponse}
    (returned : pool.Returned i (.http (.getTrace headers runId)) (.ok (.trace response))) :
    ∃ tenantId before c rows after,
      events = before ++ .performed i c ⟨.sql (.getTrace tenantId runId), .ok rows⟩ :: after ∧
      pool.shared.db.store.authenticates lib headers tenantId ∧
      response.map (fun entry => (entry.eventType, entry.payload)) =
        (appendedTo tenantId runId before).map (fun entry => (entry.1, lib.decodeJson entry.2)) ∧
      response.map TraceEventResponse.seq = numbersFromOne (appendedTo tenantId runId before).length := by
  obtain ⟨claims, holds⟩ := holds_of_started path
  obtain ⟨owned, _, returns⟩ := holds.returned returned
  obtain ⟨tenantId, rows, known, read, rfl⟩ := returns.2 response rfl
  obtain ⟨c, member⟩ := mem_doneBy.mp read
  obtain ⟨before, after, rfl⟩ := List.append_of_mem member
  obtain ⟨middle, next, earlier, step, _⟩ := path.cut
  have numbered := numbered_of_started earlier
  have log := trace_of_appended earlier tenantId runId
  obtain ⟨rfl, _⟩ := answer_of_select (executed (execute_of_step step)) rfl
  refine ⟨tenantId, before, c, _, after, rfl, known, ?_, ?_⟩ <;> rw [numbered.sorted, List.map_map, ← log]
  · rw [List.map_map]
    rfl
  · rw [List.length_map]
    exact numbered.numbers tenantId runId

/-- What the server promises about its traces in one state. -/
structure Logged (events : List (Event (platform lib config))) (pool : Pool (platform lib config)) : Prop where
  numbers : ∀ tenantId runId, (pool.shared.db.store.traceRows tenantId runId).map TraceRow.seq =
    numbersFromOne (pool.shared.db.store.traceRows tenantId runId).length
  appends : ∀ tenantId runId, (pool.shared.db.store.traceRows tenantId runId).map TraceRow.event =
    appendedTo tenantId runId events
  reads : ∀ i headers runId response, pool.Returned i (.http (.getTrace headers runId)) (.ok (.trace response)) →
    ∃ tenantId before c rows after,
      events = before ++ .performed i c ⟨.sql (.getTrace tenantId runId), .ok rows⟩ :: after ∧
      pool.shared.db.store.authenticates lib headers tenantId ∧
      response.map (fun entry => (entry.eventType, entry.payload)) =
        (appendedTo tenantId runId before).map (fun entry => (entry.1, lib.decodeJson entry.2)) ∧
      response.map TraceEventResponse.seq = numbersFromOne (appendedTo tenantId runId before).length
  writers : ∀ i j tenantId tenantId' runId eventType eventType' payload payload',
    Appending pool i tenantId runId eventType payload → Appending pool j tenantId' runId eventType' payload' → i = j

/-- Every trace is the log of the appends to its run, numbered from one, and every step appends to it or
leaves it alone. No append violates a constraint: it fails with the database, or when the generated id
of the row is taken. -/
theorem trace_log (path : Path (started lib config) events pool) :
    Logged events pool ∧ ∀ event next, Step pool event next →
      (∀ tenantId runId,
        next.shared.db.store.traceRows tenantId runId = pool.shared.db.store.traceRows tenantId runId ∨
        ∃ row, next.shared.db.store.traceRows tenantId runId =
          pool.shared.db.store.traceRows tenantId runId ++ [row]) ∧
      ∀ i c tenantId runId eventType payload error,
        event = .performed i c ⟨.sql (.appendEvent tenantId runId eventType payload), .error error⟩ →
        (error = .unavailable ∧ c.fail = true) ∨
          (error = .database .runTracesPkey ∧ ∃ row ∈ pool.shared.db.store.runTraces, row.id = c.id) := by
  refine ⟨⟨fun tenantId runId => (numbered_of_started path).numbers tenantId runId, trace_of_appended path,
    fun i headers runId response => trace_of_response path, ?_⟩, fun event next step =>
      ⟨fun tenantId runId => ?_, ?_⟩⟩
  · intro i j tenantId tenantId' runId eventType eventType' payload payload' left right
    exact left.unique path right
  · rcases traceRows_of_step step tenantId runId with ⟨_, same⟩ | ⟨row, _, grown⟩
    · exact .inl same
    · exact .inr ⟨row, grown⟩
  · rintro i c tenantId runId eventType payload error rfl
    exact appendEvent_error path step

/-- The log of the served run is complete. -/
theorem trace_log_served : ∃ events pool, Path (started permissive ⟨1, 1⟩) events pool ∧
    logs .runEnd pool = true ∧ Logged events pool := by
  obtain ⟨events, pool, path, _, logged⟩ := served
  exact ⟨events, pool, path, logged, (trace_log path).1⟩

end AgentPlatform
