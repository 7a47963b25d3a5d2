import AgentPlatform.Guarantees.AtMostOnce
import AgentPlatform.Guarantees.Log
import AgentPlatform.Ownership.History

/-! # Deleted tools are not executed

A task reads a tool again for every call of it, after it has decided on the call, so the deletion of
a tool stops every call that is decided on later. A call that was read before the deletion may still
be recorded; each run has one such call at most.
-/

set_option autoImplicit false

namespace AgentPlatform

open Interleaving Relational Database Scenario

variable {lib : Libraries} {config : Config} {events before middle after : List (Event (platform lib config))}
  {pool next : Pool (platform lib config)} {event : Event (platform lib config)} {tenantId owner runId toolId : Uuid}
  {i j : ℕ} {c : Choice} {what : Performed signature}

/-! ## Statements of tasks -/

/-- What only tasks do is done by the task of the run. -/
theorem task_of_performed (path : Path (started lib config) events pool) (member : .performed i c what ∈ events)
    (only : what.op.Unhandled) :
    ∃ thread tenantId runId, pool.threads[i]? = some thread ∧ thread.task = .executeRun tenantId runId ∧
      what.op.InRun tenantId runId := by
  obtain ⟨⟨task, owned, program⟩, present, done, follows⟩ := path.thread_of_performed rfl member
  cases task with
  | http request => exact absurd only ((follows.uses (uses_handler request)).1 what done)
  | executeRun tenantId runId =>
    refine ⟨_, tenantId, runId, present, rfl, ?_⟩
    rcases (follows.uses uses_task).1 what done with inRun | ⟨semaphore, dropped⟩
    · exact inRun
    · rw [dropped] at only
      exact only.elim

/-- Such a statement is justified when it is executed. -/
theorem justified_of_performed (path : Path (started lib config) (before ++ .performed i c what :: after) pool)
    (only : what.op.Unhandled) : ∃ tenantId runId, what.op.InRun tenantId runId ∧ Executes runId pool i ∧
      Justified lib tenantId runId (doneBy i before) what.op := by
  have member : Event.performed i c what ∈ before ++ .performed i c what :: after := by simp
  obtain ⟨thread, tenantId, runId, present, task, inRun⟩ := task_of_performed path member only
  have along : ((platform lib config).body thread.task).Along (Justified lib tenantId runId)
      (fun _ _ => True) [] := by
    rw [task]
    exact along_task
  exact ⟨tenantId, runId, inRun, ⟨thread, tenantId, present, task⟩, path.along_performed rfl present along⟩

theorem due_of_performed (path : Path (started lib config) (before ++ .performed i c what :: after) pool)
    (only : what.op.Unhandled) :
    ∃ tenantId runId, what.op.InRun tenantId runId ∧ Executes runId pool i ∧
      Due lib tenantId runId (doneBy i before) what.op := by
  obtain ⟨tenantId, runId, inRun, executes, justified⟩ := justified_of_performed path only
  exact ⟨tenantId, runId, inRun, executes, justified.due⟩

/-! ## Deletions -/

/-- The tool is deleted; deleting it again has no effect. -/
def DeletesTool (tenantId toolId : Uuid) (event : Event (platform lib config)) : Prop :=
  ∃ i c count, event = .performed i c ⟨.sql (.deleteTool tenantId toolId), .ok count⟩ ∧ count ≠ 0

/-- The tool is marked as deleted. -/
def Store.Deleted (s : Store) (tenantId toolId : Uuid) : Prop :=
  ∃ tool ∈ s.tools, tool.tenantId = tenantId ∧ tool.id = toolId ∧ tool.deletedAt ≠ none

theorem Store.Deleted.evolve {s t : Store} (deleted : s.Deleted tenantId toolId) (evolves : s.Evolves t) :
    t.Deleted tenantId toolId := by
  obtain ⟨tool, present, owner, id, gone⟩ := deleted
  obtain ⟨later, found, since⟩ := evolves.tools tool present
  exact ⟨later, found, since.tenantId.trans owner, since.id.trans id, by rwa [since.deletedAt gone]⟩

/-- A deletion that changes a row marks the tool as deleted. -/
theorem DeletesTool.deleted (deletes : DeletesTool tenantId toolId event) (step : Step pool event next) :
    next.shared.db.store.Deleted tenantId toolId := by
  obtain ⟨i, c, count, rfl, some_row⟩ := deletes
  have ran := execute_of_step step
  generalize next.shared.db = db at ran
  simp only [execute] at ran
  split at ran
  · cases ran
  · cases ran
    obtain ⟨row, there, selected⟩ := List.countP_pos_iff.mp (Nat.pos_of_ne_zero some_row)
    refine ⟨_, List.mem_map_of_mem there, ?_⟩
    rw [if_pos selected]
    simp only [Bool.and_eq_true, beq_iff_eq] at selected
    exact ⟨selected.1.1, selected.1.2, Option.some_ne_none _⟩

/-- A deleted tool stays deleted. -/
theorem deleted_of_event (path : Path (started lib config) events pool) (member : event ∈ events)
    (deletes : DeletesTool tenantId toolId event) : pool.shared.db.store.Deleted tenantId toolId :=
  path.since (fun pool => pool.shared.db.store.Deleted tenantId toolId)
    (fun _ _ _ _ _ step deletes => deletes.deleted step)
    (fun _ _ _ _ path step deleted => deleted.evolve (evolves_of_started path step)) member deletes

/-- Only deletions delete tools. -/
theorem event_of_deleted (path : Path (started lib config) events pool)
    (deleted : pool.shared.db.store.Deleted tenantId toolId) :
    ∃ event ∈ events, DeletesTool tenantId toolId event := by
  induction path with
  | nil =>
    obtain ⟨tool, present, _⟩ := deleted
    simp [started, World.new] at present
  | @snoc middle last events event path step ih =>
    have earlier (old : middle.shared.db.store.Deleted tenantId toolId) : ∃ found ∈ events ++ [event],
        DeletesTool tenantId toolId found := by
      obtain ⟨found, member, deletes⟩ := ih old
      exact ⟨found, List.mem_append_left _ member, deletes⟩
    obtain ⟨tool, present, owned, id, gone⟩ := deleted
    rcases store_of_step step with same | ⟨i, c, statement, answer, rfl, ran⟩
    · rw [same] at present
      exact earlier ⟨tool, present, owned, id, gone⟩
    rcases tools_executed ran with same | ⟨_, _, _, _, _, grown⟩ | ⟨owner, deletedTool, happened, changed⟩
    · rw [same] at present
      exact earlier ⟨tool, present, owned, id, gone⟩
    · rw [grown] at present
      rcases List.mem_append.mp present with old | new
      · exact earlier ⟨tool, old, owned, id, gone⟩
      · obtain rfl := List.mem_singleton.mp new
        exact absurd rfl gone
    · cases happened
      rw [changed] at present
      obtain ⟨row, there, rfl⟩ := List.mem_map.mp present
      split at owned
      · next selected =>
        rw [if_pos selected] at id
        have key : owner = tenantId ∧ deletedTool = toolId := by
          simp only [Bool.and_eq_true, beq_iff_eq] at selected
          exact ⟨selected.1.1.symm.trans owned, selected.1.2.symm.trans id⟩
        obtain ⟨rfl, rfl⟩ := key
        refine ⟨_, List.mem_append_right _ (List.mem_singleton_self _), i, c, _, rfl, ?_⟩
        exact Nat.ne_of_gt (List.countP_pos_iff.mpr ⟨row, there, selected⟩)
      · next other =>
        rw [if_neg other] at id gone
        exact earlier ⟨row, there, owned, id, gone⟩

/-! ## Executed tool calls -/

/-- A decision of this run is recorded. -/
def RecordsCall (runId : Uuid) (event : Event (platform lib config)) : Prop :=
  ∃ i c tenantId payload, event = .performed i c ⟨.sql (.appendEvent tenantId runId .llmCall payload), .ok ()⟩

/-- An executed call of this tool is recorded for this run. -/
def RecordsExec (runId toolId : Uuid) (event : Event (platform lib config)) : Prop :=
  ∃ i c tenantId payload, event = .performed i c ⟨.sql (.appendEvent tenantId runId .toolExec payload), .ok ()⟩ ∧
    payload.get "tool_id" = some (.uuid toolId)

/-- The second last element of a list comes after an element that is neither it nor the last one. -/
private theorem mem_of_second_last {α : Type} {left right front : List α} {here first second last : α}
    (same : left ++ here :: right = front ++ [first, second, last]) (notSecond : here ≠ second)
    (notLast : here ≠ last) : second ∈ right := by
  rcases List.eq_nil_or_concat right with rfl | ⟨rest, final, rfl⟩
  · have ends : left ++ [here] = (front ++ [first, second]) ++ [last] := by simpa using same
    exact absurd (List.singleton_inj.mp (List.append_inj' ends rfl).2) notLast
  have shorter : (left ++ here :: rest) ++ [final] = (front ++ [first, second]) ++ [last] := by simpa using same
  have same := (List.append_inj' shorter rfl).1
  rcases List.eq_nil_or_concat rest with rfl | ⟨rest, final, rfl⟩
  · have ends : left ++ [here] = (front ++ [first]) ++ [second] := by simpa using same
    exact absurd (List.singleton_inj.mp (List.append_inj' ends rfl).2) notSecond
  · have ends : (left ++ here :: rest) ++ [final] = (front ++ [first]) ++ [second] := by simpa using same
    rw [List.singleton_inj.mp (List.append_inj' ends rfl).2]
    simp

/-- The answer of `get_tool` is the row in the state in which it is read. -/
theorem findTool_of_step {row : ToolRow}
    (step : Step pool (.performed i c ⟨.sql (.getTool tenantId toolId), .ok (some row)⟩) next) :
    row ∈ pool.shared.db.store.tools ∧ row.tenantId = tenantId ∧ row.id = toolId := by
  obtain ⟨same, _⟩ := answer_of_select (executed (execute_of_step step)) rfl
  exact Store.findTool_some same.symm

/-- Between any earlier event of the loop and an executed tool call the tool was read, and not deleted. -/
theorem read_between {tenantId' : Uuid} {eventType : EventType} {payload payload' : Value} {c' : Choice}
    (path : Path (started lib config)
      (before ++ .performed i c ⟨.sql (.appendEvent tenantId' runId eventType payload'), .ok ()⟩ :: (middle ++
        .performed j c' ⟨.sql (.appendEvent tenantId runId .toolExec payload), .ok ()⟩ :: after)) pool)
    (loop : eventType = .llmCall ∨ eventType = .toolExec) (named : payload.get "tool_id" = some (.uuid toolId)) :
    ∃ k c row, .performed k c ⟨.sql (.getTool tenantId toolId), .ok (some row)⟩ ∈ middle ∧ row.deletedAt = none := by
  have only : Op.Unhandled (.sql (.appendEvent tenantId' runId eventType payload')) := by
    rcases loop with rfl | rfl <;> exact .inr (by decide)
  have only' : Op.Unhandled (.sql (.appendEvent tenantId runId .toolExec payload)) := .inr (by decide)
  obtain ⟨owner, run, ⟨_, same, _⟩, executes, _⟩ := due_of_performed path only
  rw [List.append_cons, ← List.append_assoc] at path
  obtain ⟨owner', run', ⟨sameTenant, same', _⟩, executes', due⟩ := due_of_performed path only'
  subst same same' sameTenant
  obtain rfl := executes_unique path executes executes'
  obtain ⟨front, iteration, decision, read, arguments, row, agentId, ids, result, history, _, active, rfl⟩ := due
  rw [doneBy_append, doneBy_append, doneBy_performed, if_pos rfl, List.append_assoc, List.singleton_append] at history
  have between := mem_of_second_last history (by rintro ⟨⟩) (by rintro ⟨⟩)
  obtain ⟨c, member⟩ := mem_doneBy.mp between
  obtain ⟨first, last, rfl⟩ := List.append_of_mem member
  obtain ⟨state, until_then, _⟩ := Path.append_iff.mp path
  rw [← List.append_assoc] at until_then
  obtain ⟨here, there, _, step, _⟩ := until_then.cut
  have id : row.id = toolId := Value.uuid_injective (Option.some.inj named)
  obtain ⟨_, _, found⟩ := findTool_of_step step
  rw [← found.symm.trans id]
  exact ⟨i, c, row, member, active⟩

/-- After a deletion no call of the tool is recorded that was decided on later, and none after another
executed call. -/
theorem fenced {first second : Event (platform lib config)} {rest : List (Event (platform lib config))}
    (path : Path (started lib config) (before ++ first :: (middle ++ second :: rest)) pool)
    (deleted : ∃ deletion ∈ before, DeletesTool owner toolId deletion)
    (loop : RecordsCall runId first ∨ RecordsExec runId toolId first)
    (records : RecordsExec runId toolId second) : False := by
  obtain ⟨deletion, member, deletes⟩ := deleted
  obtain ⟨j, c', tenantId, payload, rfl, named⟩ := records
  have read : ∃ k c row, .performed k c ⟨.sql (.getTool tenantId toolId), .ok (some row)⟩ ∈ middle ∧
      row.deletedAt = none := by
    rcases loop with ⟨i, c, _, _, rfl⟩ | ⟨i, c, _, _, rfl, _⟩
    · exact read_between path (.inl rfl) named
    · exact read_between path (.inr rfl) named
  obtain ⟨k, c, row, between, active⟩ := read
  obtain ⟨front, back, rfl⟩ := List.append_of_mem between
  rw [List.append_cons, ← List.append_assoc] at path
  obtain ⟨state, until_then, _⟩ := Path.append_iff.mp path
  rw [← List.append_assoc] at until_then
  obtain ⟨here, there, until_then, step, _⟩ := until_then.cut
  obtain ⟨gone, present, _, id, marked⟩ := deleted_of_event until_then
    (List.mem_append_left _ (List.mem_append_left _ member)) deletes
  obtain ⟨found, _, sameId⟩ := findTool_of_step step
  have valid : Valid lib here.shared := valid_of_started until_then
  rw [valid.wellFormed.catalogue.ids.eq present found rfl (congrArg some (sameId.trans id.symm))] at marked
  exact marked active

/-- Of the calls that were decided on before the deletion each run records one at most. -/
theorem recordsExec_atMostOnce (path : Path (started lib config) (before ++ after) pool)
    (deleted : ∃ deletion ∈ before, DeletesTool owner toolId deletion) :
    AtMostOnce (RecordsExec runId toolId) after := by
  induction after generalizing before with
  | nil => exact .nil
  | cons first rest ih =>
    refine .cons (fun second member now later => ?_) (ih (by rwa [← List.append_cons]) ?_)
    · obtain ⟨middle, tail, rfl⟩ := List.append_of_mem member
      exact fenced path deleted (.inr now) later
    · obtain ⟨deletion, member, deletes⟩ := deleted
      exact ⟨deletion, List.mem_append_left _ member, deletes⟩

/-! ## Runs that fail on a deleted tool -/

/-- The reason of a failed run comes from a statement. -/
theorem errorReason_executed {db db' : Database} {statement : Statement} {answer : Except SqlxError statement.Row}
    (wellFormed : db.WellFormed) (ran : Executed c db statement answer db') {run : RunRow} {reason : String}
    (present : run ∈ db'.store.runs) (failed : run.errorReason = some reason) :
    (∃ old ∈ db.store.runs, old.id = run.id ∧ old.tenantId = run.tenantId ∧ old.errorReason = some reason) ∨
    statement = .markRunFailed run.tenantId run.id reason ∨
    ∃ status finalAnswer, statement = .finalizeRun run.tenantId run.id status finalAnswer (some reason) := by
  cases ran with
  | unavailable failing =>
    rw [lose_store] at present
    exact .inl ⟨run, present, rfl, rfl, failed⟩
  | @commit tx transaction found alive =>
    rcases List.mem_append.mp present with old | new
    · exact .inl ⟨run, old, rfl, rfl, failed⟩
    · rw [(wellFormed.runs.fresh tx run (mem_own.mp new)).errorReason] at failed
      cases failed
  | @markRunFailed tenantId runId errorReason =>
    obtain ⟨old, there, rfl⟩ := List.mem_map.mp present
    split at failed
    · next selected =>
      simp only [Bool.and_eq_true, beq_iff_eq] at selected
      obtain ⟨rfl, rfl⟩ := selected
      cases failed
      exact .inr (.inl (by simp))
    · next other => exact .inl ⟨old, there, by rw [if_neg other], by rw [if_neg other], failed⟩
  | @beginRunExecution tenantId runId =>
    obtain ⟨old, there, rfl⟩ := List.mem_map.mp present
    split at failed
    · next selected => exact .inl ⟨old, there, by rw [if_pos selected], by rw [if_pos selected], failed⟩
    · next other => exact .inl ⟨old, there, by rw [if_neg other], by rw [if_neg other], failed⟩
  | @finalizeRun tenantId runId status finalAnswer errorReason =>
    obtain ⟨old, there, rfl⟩ := List.mem_map.mp present
    split at failed
    · next selected =>
      simp only [Bool.and_eq_true, beq_iff_eq] at selected
      obtain ⟨rfl, rfl⟩ := selected
      cases failed
      exact .inr (.inr ⟨status, finalAnswer, by simp⟩)
    · next other => exact .inl ⟨old, there, by rw [if_neg other], by rw [if_neg other], failed⟩
  | _ => exact .inl ⟨run, present, rfl, rfl, failed⟩

theorem event_of_errorReason (path : Path (started lib config) events pool) {run : RunRow} {reason : String}
    (present : run ∈ pool.shared.db.store.runs) (failed : run.errorReason = some reason)
    (other : reason ∉ capacityReasons) : ∃ i c what status finalAnswer, .performed i c what ∈ events ∧
      what.op = .sql (.finalizeRun run.tenantId run.id status finalAnswer (some reason)) := by
  induction path generalizing run with
  | nil => simp [started, World.new] at present
  | @snoc middle last events event path step ih =>
    have earlier (old : ∃ old ∈ middle.shared.db.store.runs, old.id = run.id ∧ old.tenantId = run.tenantId ∧
        old.errorReason = some reason) : ∃ i c what status finalAnswer, .performed i c what ∈ events ++ [event] ∧
          what.op = .sql (.finalizeRun run.tenantId run.id status finalAnswer (some reason)) := by
      obtain ⟨old, there, id, tenantId, failed⟩ := old
      obtain ⟨i, c, what, status, finalAnswer, member, happened⟩ := ih there failed
      exact ⟨i, c, what, status, finalAnswer, List.mem_append_left _ member, id ▸ tenantId ▸ happened⟩
    rcases store_of_step step with same | ⟨i, c, statement, answer, rfl, ran⟩
    · rw [same] at present
      exact earlier ⟨run, present, rfl, rfl, failed⟩
    have wellFormed := (valid_of_started path).wellFormed
    rcases errorReason_executed wellFormed ran present failed with old | refused | ⟨status, finalAnswer, settled⟩
    · exact earlier old
    · subst refused
      obtain ⟨_, _, _, _, _, absurd⟩ := task_of_performed (path.snoc step)
        (List.mem_append_right _ (List.mem_singleton_self _)) other
      exact absurd.elim
    · subst settled
      exact ⟨i, c, _, status, finalAnswer, List.mem_append_right _ (List.mem_singleton_self _), rfl⟩

/-- The last decision of the run was to call this tool. -/
structure LastCalls (trace : List (EventType × Value)) (toolId : Uuid) : Prop where
  last : ∃ before call after decision, trace = before ++ (.llmCall, call) :: after ∧
    (∀ event ∈ after, event.1 ≠ .llmCall) ∧ call.get "decision" = some decision ∧
    decision.get "tool_id" = some (.uuid toolId)

/-- A tool that was read as deleted had been deleted. -/
theorem deletion_of_read (path : Path (started lib config) events pool) {row : ToolRow}
    (read : ⟨.sql (.getTool tenantId toolId), .ok (some row)⟩ ∈ doneBy i events) (gone : row.deletedAt ≠ none) :
    ∃ deletion ∈ events, DeletesTool tenantId toolId deletion := by
  obtain ⟨d, there⟩ := mem_doneBy.mp read
  obtain ⟨front, back, rfl⟩ := List.append_of_mem there
  obtain ⟨here, next, until_then, step, _⟩ := path.cut
  obtain ⟨found, owned, id⟩ := findTool_of_step step
  obtain ⟨deletion, member, deletes⟩ := event_of_deleted until_then ⟨row, found, owned, id, gone⟩
  exact ⟨deletion, List.mem_append_left _ member, deletes⟩

/-- After the statement that settles its run, a task decides on nothing. -/
theorem no_call_after_settling {status : RunStatus} {finalAnswer errorReason : Option String}
    {answer : Except SqlxError ℕ} {payload : Value} {done : Except SqlxError Unit}
    (path : Path (started lib config)
      (before ++ .performed i c ⟨.sql (.finalizeRun tenantId runId status finalAnswer errorReason), answer⟩ ::
      after) pool)
        (later : ⟨.sql (.appendEvent tenantId runId .llmCall payload), done⟩ ∈ doneBy i after) : False := by
  obtain ⟨d, there⟩ := mem_doneBy.mp later
  obtain ⟨front, back, rfl⟩ := List.append_of_mem there
  rw [List.append_cons, ← List.append_assoc] at path
  obtain ⟨_, _, _, _, _, _, _, _, _, prepared, _⟩ := due_of_performed path (.inr (by decide))
  have unsettled := prepared.unsettled
  simp [settles] at unsettled

/-- A run that failed on a deleted tool failed on the tool that it called last, and that was deleted before
the run was settled. -/
theorem deletion_of_failed (path : Path (started lib config) events pool) {run : RunRow}
    (present : run ∈ pool.shared.db.store.runs) (failed : run.errorReason = some "tool_deleted") :
    ∃ toolId before settle after, events = before ++ settle :: after ∧
      LastCalls ((pool.shared.db.store.traceRows run.tenantId run.id).map TraceRow.event) toolId ∧
      (∃ deletion ∈ before, DeletesTool run.tenantId toolId deletion) ∧
      ∃ i c what status finalAnswer, settle = .performed i c what ∧
        what.op = .sql (.finalizeRun run.tenantId run.id status finalAnswer (some "tool_deleted")) := by
  obtain ⟨i, c, ⟨op, answer⟩, status, finalAnswer, member, rfl⟩ :=
    event_of_errorReason path present failed (by decide)
  obtain ⟨before, after, rfl⟩ := List.append_of_mem member
  obtain ⟨owner, runId, ⟨rfl, rfl⟩, executes, due⟩ := due_of_performed path True.intro
  obtain ⟨front, iteration, decision, toolId, arguments, row, history, names, gone⟩ := due rfl
  obtain ⟨middle, _, until_settled, _, _⟩ := path.cut
  have read : ⟨.sql (.getTool run.tenantId toolId), .ok (some row)⟩ ∈ doneBy i before := by
    rw [history]
    exact List.mem_append_right _ (List.mem_cons_of_mem _ (List.mem_singleton_self _))
  have deletion := deletion_of_read until_settled read gone
  refine ⟨toolId, before, _, after, rfl, ?_, deletion, i, c, _, status, finalAnswer, rfl, rfl⟩
  obtain ⟨first, c', rest, rfl, _, reads⟩ := exists_cut_of_doneBy history
  have trace := trace_of_appended path run.tenantId run.id
  refine ⟨appendedTo run.tenantId run.id first, Payload.llmCall iteration decision.tracePayload,
    appendedTo run.tenantId run.id (rest ++ .performed i c ⟨_, answer⟩ :: after),
      decision.tracePayload, ?_, ?_, rfl, names.payload⟩
  · rw [trace]
    simp [appendedTo, appendedBy, appended?]
  · rintro ⟨_, payload⟩ member rfl
    obtain ⟨j, d, there⟩ := event_of_appendedTo member
    have inside : .performed j d ⟨.sql (.appendEvent run.tenantId run.id .llmCall payload), .ok ()⟩ ∈ first ++
        .performed i c' (called run.tenantId run.id iteration decision) :: rest ++
            .performed i c ⟨_, answer⟩ :: after := by
      rw [List.append_assoc, List.cons_append]
      exact List.mem_append_right _ (List.mem_cons_of_mem _ there)
    -- only the task of the run records its calls
    obtain ⟨thread, _, _, found, task, rfl, rfl, _⟩ := task_of_performed path inside (.inr (by decide))
    obtain rfl := executes_unique path executes ⟨thread, _, found, task⟩
    rcases List.mem_append.mp there with between | later
    · have only := mem_doneBy.mpr ⟨d, between⟩
      rw [reads] at only
      cases List.mem_singleton.mp only
    · rcases List.mem_cons.mp later with absurd | later
      · cases absurd
      · exact no_call_after_settling path (mem_doneBy.mpr ⟨d, later⟩)

/-- Once a tool is deleted, no run records a call of it that it decides on later, and each run records one more
call of it at most. A run fails because of a deleted tool only if the tool it called last was deleted before. -/
theorem deletion_fences (path : Path (started lib config) events pool) :
    (∀ before deletion after tenantId toolId, events = before ++ deletion :: after →
      DeletesTool tenantId toolId deletion → (∀ runId, AtMostOnce (RecordsExec runId toolId) after) ∧
      ∀ runId middle call rest, after = middle ++ call :: rest → RecordsCall runId call →
        ∀ event ∈ rest, ¬ RecordsExec runId toolId event) ∧
    ∀ run ∈ pool.shared.db.store.runs, run.errorReason = some "tool_deleted" →
      ∃ toolId before settle after, events = before ++ settle :: after ∧
        LastCalls ((pool.shared.db.store.traceRows run.tenantId run.id).map TraceRow.event) toolId ∧
        (∃ deletion ∈ before, DeletesTool run.tenantId toolId deletion) ∧
        ∃ i c what status finalAnswer, settle = .performed i c what ∧
          what.op = .sql (.finalizeRun run.tenantId run.id status finalAnswer (some "tool_deleted")) := by
  refine ⟨?_, fun run present failed => deletion_of_failed path present failed⟩
  rintro before deletion after tenantId toolId rfl deletes
  have deleted : ∃ found ∈ before ++ [deletion], DeletesTool tenantId toolId found := ⟨deletion, by simp, deletes⟩
  rw [List.append_cons] at path
  refine ⟨fun runId => recordsExec_atMostOnce path deleted, ?_⟩
  rintro runId middle call rest rfl records event member executes
  obtain ⟨between, tail, rfl⟩ := List.append_of_mem member
  rw [← List.append_assoc] at path
  obtain ⟨found, there, deletes⟩ := deleted
  have still : ∃ found ∈ before ++ [deletion] ++ middle, DeletesTool tenantId toolId found :=
    ⟨found, List.mem_append_left _ there, deletes⟩
  exact fenced path still (.inl records) executes

namespace Scenario

/-- The tool of the agent is deleted after the run has listed it. -/
def deletedTool : List (Label (platform permissive config)) :=
  onboarding ++ [arrive (.createTool headers staticTool)] ++ moves 2 10 2 ++
  [arrive (.createAgent headers ⟨none, "Answer.", [11], 5⟩)] ++ moves 3 20 7 ++
  [arrive (.startRun headers 22 question)] ++ moves 4 30 10 ++ moves 5 40 6 ++
  [arrive (.deleteTool headers 11)] ++ moves 6 60 2 ++ moves 5 70 6

/-- The event deletes the tool of the service. -/
def deletesServed : Event (platform permissive config) → Bool
  | .performed _ _ ⟨.sql (.deleteTool 1 11), .ok count⟩ => count != 0
  | _ => false

theorem of_deletesServed {event : Event (platform permissive config)} (checked : deletesServed event = true) :
    DeletesTool 1 11 event := by
  unfold deletesServed at checked
  split at checked
  · exact ⟨_, _, _, rfl, bne_iff_ne.mp checked⟩
  · cases checked

/-- The event is a decision of the served run. -/
def callsServed : Event (platform permissive config) → Bool
  | .performed _ _ ⟨.sql (.appendEvent _ 33 .llmCall _), .ok ()⟩ => true
  | _ => false

theorem of_callsServed {event : Event (platform permissive config)} (checked : callsServed event = true) :
    RecordsCall 33 event := by
  unfold callsServed at checked
  split at checked
  · exact ⟨_, _, _, _, rfl⟩
  · cases checked

/-- Whether the run decides on something after the deletion. -/
def callsAfterDeletion (events : List (Event (platform permissive config))) : Bool :=
  match events.dropWhile fun event => !deletesServed event with
  | deletion :: after => deletesServed deletion && after.any callsServed
  | [] => false

theorem of_callsAfterDeletion {events : List (Event (platform permissive config))}
    (checked : callsAfterDeletion events = true) :
    ∃ before deletion after, events = before ++ deletion :: after ∧ DeletesTool 1 11 deletion ∧
      ∃ call ∈ after, RecordsCall 33 call := by
  unfold callsAfterDeletion at checked
  split at checked
  · next deletion after found =>
    obtain ⟨deletes, calls⟩ := Bool.and_eq_true_iff.mp checked
    obtain ⟨call, member, records⟩ := List.any_eq_true.mp calls
    refine ⟨events.takeWhile fun event => !deletesServed event, deletion, after, ?_, of_deletesServed deletes, call,
      member, of_callsServed records⟩
    rw [← found, List.takeWhile_append_dropWhile]
  · cases checked

end Scenario

/-- The run decides to call the tool after it was deleted, records no call of it, and fails for this reason. -/
theorem deletion_fences_served : ∃ events pool, Path (started permissive ⟨1, 1⟩) events pool ∧
    (∃ before deletion after, events = before ++ deletion :: after ∧ DeletesTool 1 11 deletion ∧
      AtMostOnce (RecordsExec 33 11) after ∧ ∃ middle call rest, after = middle ++ call :: rest ∧
        RecordsCall 33 call ∧ ∀ event ∈ rest, ¬ RecordsExec 33 11 event) ∧
    ∃ run ∈ pool.shared.db.store.runs, run.id = 33 ∧ run.errorReason = some "tool_deleted" ∧
      ∃ toolId, LastCalls ((pool.shared.db.store.traceRows run.tenantId run.id).map TraceRow.event) toolId ∧
        ∃ deletion ∈ events, DeletesTool run.tenantId toolId deletion := by
  obtain ⟨events, pool, path, checked⟩ := (started permissive ⟨1, 1⟩).exists_path deletedTool
    (fun events pool => callsAfterDeletion events &&
      pool.shared.db.store.runs.any fun run => run.id == 33 &&
        run.errorReason == some "tool_deleted") (by decide +kernel)
  simp only [Bool.and_eq_true, List.any_eq_true, beq_iff_eq] at checked
  obtain ⟨calls, run, present, id, reason⟩ := checked
  obtain ⟨fences, fails⟩ := deletion_fences path
  refine ⟨events, pool, path, ?_, run, present, id, reason, ?_⟩
  · obtain ⟨before, deletion, after, same, deletes, call, member, records⟩ := of_callsAfterDeletion calls
    obtain ⟨middle, rest, split⟩ := List.append_of_mem member
    obtain ⟨once, fenced⟩ := fences before deletion after 1 11 same deletes
    exact ⟨before, deletion, after, same, deletes, once 33, middle, call, rest, split, records,
      fenced 33 middle call rest split records⟩
  · obtain ⟨toolId, before, settle, after, same, last, ⟨deletion, member, deletes⟩, _⟩ := fails run present reason
    exact ⟨toolId, last, deletion, same ▸ List.mem_append_left _ member, deletes⟩

end AgentPlatform
