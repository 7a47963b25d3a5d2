import AgentPlatform.Guarantees.Forced

/-! # The outcome of the agent loop

If the first tool of an agent stays active and answers statically, the outcome of a run depends only on
which of the first two calls the schema of the tool accepts and on the number of iterations.
-/

set_option autoImplicit false

namespace AgentPlatform

open Interleaving Relational Database Scenario

/-! ## The reference -/

/-- How a run ended, and how many decisions and tool calls its trace records. -/
structure LoopOutcome where
  status : RunStatus
  errorReason : Option String
  answered : Bool
  llmCalls : ℕ
  toolExecs : ℕ
deriving DecidableEq

/-- The first call that is not accepted ends the run; otherwise two iterations are not enough for an answer. -/
def LoopOutcome.reference (accepts : ℕ → Bool) (maxIterations : ℕ) : LoopOutcome :=
  match (List.range (min maxIterations 2)).find? fun k => !accepts k with
  | some k => ⟨.failed, some "invalid_tool_arguments", false, k + 1, k⟩
  | none =>
      if maxIterations ≤ 2 then ⟨.failed, some "max_iterations_exceeded", false, maxIterations, maxIterations⟩
      else ⟨.success, none, true, 3, 2⟩

def RunRow.outcome (run : RunRow) (s : Store) : LoopOutcome where
  status := run.status
  errorReason := run.errorReason
  answered := run.finalAnswer.isSome
  llmCalls := (s.eventsOf run.tenantId run.id .llmCall).length
  toolExecs := (s.eventsOf run.tenantId run.id .toolExec).length

section Reference

variable {accepts : ℕ → Bool} {maxIterations k : ℕ}

theorem LoopOutcome.reference_rejected (room : k < maxIterations) (few : k < 2) (before : ∀ j < k, accepts j = true)
    (rejects : accepts k = false) :
    reference accepts maxIterations = ⟨.failed, some "invalid_tool_arguments", false, k + 1, k⟩ := by
  have first : (List.range (min maxIterations 2)).find? (fun k => !accepts k) = some k := by
    rw [List.find?_range_eq_some]
    refine ⟨by simp [rejects], List.mem_range.mpr (by omega), fun j less => ?_⟩
    simp [before j less]
  rw [reference, first]

theorem LoopOutcome.reference_accepted (all : ∀ j < min maxIterations 2, accepts j = true) :
    reference accepts maxIterations =
      if maxIterations ≤ 2 then ⟨.failed, some "max_iterations_exceeded", false, maxIterations, maxIterations⟩
      else ⟨.success, none, true, 3, 2⟩ := by
  have clean : (List.range (min maxIterations 2)).find? (fun k => !accepts k) = none := by
    rw [List.find?_range_eq_none]
    intro j less
    simp [all j less]
  rw [reference, clean]

end Reference

/-! ## What a stage records -/

namespace Stage

variable {rounds : List Round} {decision : Option LlmDecision} {verdict : Verdict}

private theorem toolExecs_roundEvents (before : ℕ) (rounds : List Round) :
    (roundEvents before rounds).filter (fun event => event.1 == .toolExec) =
      rounds.mapIdx fun j round =>
      (.toolExec, Payload.toolExec round.tool (iterationArguments (before + j)) round.result) := by
  induction rounds generalizing before with
  | nil => rfl
  | cons round rest ih =>
    rw [List.mapIdx_cons]
    simp only [roundEvents, List.filter_cons, ih (before + 1), Nat.add_zero, Nat.add_assoc, Nat.add_comm 1]
    rfl

private theorem llmCalls_roundEvents (before : ℕ) (rounds : List Round) :
    ((roundEvents before rounds).filter fun event => event.1 == .llmCall).length = rounds.length := by
  induction rounds generalizing before with
  | nil => rfl
  | cons round rest ih =>
    simp only [roundEvents, List.filter_cons]
    exact congrArg (· + 1) (ih (before + 1))

/-- The executed calls of an ended run. -/
theorem toolExecs_ended : ((ended rounds decision verdict).events.filter fun event => event.1 == .toolExec) =
    rounds.mapIdx fun j round => (.toolExec, Payload.toolExec round.tool (iterationArguments j) round.result) := by
  have calls := toolExecs_roundEvents 0 rounds
  simp only [Nat.zero_add] at calls
  rw [← calls]
  cases decision <;> simp [events, loopEvents, opening, admission, announcement, decisionEvents]

/-- The decisions of an ended run. -/
theorem llmCalls_ended : ((ended rounds decision verdict).events.filter fun event => event.1 == .llmCall).length =
    rounds.length + decision.toList.length := by
  have calls := llmCalls_roundEvents 0 rounds
  cases decision <;> simp [events, loopEvents, opening, admission, announcement, decisionEvents, calls]

private theorem iteration_le_roundEvents {before : ℕ} {iteration : Int} {decided : Value}
    (member : (.llmCall, Payload.llmCall iteration decided) ∈ roundEvents before rounds) :
    iteration ≤ before + rounds.length := by
  induction rounds generalizing before with
  | nil => cases member
  | cons round rest ih =>
    simp only [roundEvents, List.mem_cons] at member
    rcases member with same | same | later
    · have numbers : iteration = before + 1 := by
        simp only [Payload.llmCall, Value.int, Prod.mk.injEq, Value.object.injEq,
          List.cons.injEq, Value.number.injEq] at same
        exact same.2.1.2.1
      rw [List.length_cons]
      omega
    · cases same
    · have bound := ih later
      rw [List.length_cons]
      push_cast at bound ⊢
      omega

/-- The iterations of an ended run. -/
theorem iteration_le_ended {iteration : Int} {decided : Value}
    (member : (.llmCall, Payload.llmCall iteration decided) ∈ (ended rounds decision verdict).events) :
    iteration ≤ rounds.length + 1 := by
  simp only [events, loopEvents, List.mem_append, List.mem_singleton, Prod.mk.injEq, reduceCtorEq,
    false_and, or_false] at member
  rcases member with (first | round) | last
  · simp [opening, admission, announcement] at first
  · have bound := iteration_le_roundEvents round
    push_cast at bound
    omega
  · obtain ⟨_, _, same⟩ := List.mem_map.mp last
    simp only [Payload.llmCall, Value.int, Prod.mk.injEq, Value.object.injEq,
      List.cons.injEq, Value.number.injEq] at same
    omega

/-- The mock LLM calls a tool twice at most. -/
theorem fits_lt_two {decision : LlmDecision} {results : ℕ} (fits : decision.Fits results)
    (called : ∃ toolId arguments, decision.kind = .toolCall toolId arguments) : results < 2 := by
  cases fits with
  | forced toolId => decide
  | ordinary toolId few => exact few
  | final =>
    obtain ⟨_, _, absurd⟩ := called
    cases absurd

/-- No run executes more than two tool calls. -/
theorem Reachable.rounds_le {maxIterations : ℕ} {stage : Stage} (reachable : stage.Reachable maxIterations) :
    stage.rounds.length ≤ 2 := by
  induction reachable with
  | refl => exact Nat.zero_le _
  | tail reached next ih =>
    cases next with
    | execute round =>
      have few := fits_lt_two (Reachable.within reached).2 ⟨_, _, rfl⟩
      simp only [rounds, List.length_append, List.length_singleton]
      omega
    | _ => exact ih

end Stage

/-! ## The first tool -/

variable {lib : Libraries} {config : Config} {events : List (Event (platform lib config))}
  {pool : Pool (platform lib config)} {run : RunRow} {tool : ToolRow}
  {isValid : Value → Bool} {response : Value} {i : ℕ}

/-- The task of the run listed this tool first, and the tool is not deleted before the task is done. -/
structure RunsWith (lib : Libraries) (events : List (Event (platform lib config))) (i : ℕ) (run : RunRow)
    (tool : ToolRow) (isValid : Value → Bool) (response : Value) : Prop where
  listed : ∃ rest, ⟨.sql (.listAgentTools run.tenantId run.agentId), .ok (tool :: rest)⟩ ∈ doneBy i events
  active : ∀ before deletion after, events = before ++ deletion :: after →
    DeletesTool run.tenantId tool.id deletion → doneBy i after = []
  compiles : lib.compile (toolFromRow lib tool).inputSchema = some isValid
  static : (toolFromRow lib tool).mockHandler.get "type" = some (.string "static")
  responds : (toolFromRow lib tool).mockHandler.get "response" = some response

/-- A task lists its tools once. -/
theorem listed_once (path : Path (started lib config) events pool) (executes : Executes run.id pool i)
    {rows : List ToolRow} {agentId : Uuid}
    (listed : ⟨.sql (.listAgentTools run.tenantId agentId), .ok rows⟩ ∈ doneBy i events) :
    (doneBy i events).findSome? listedTools? = some rows := by
  obtain ⟨c, member⟩ := mem_doneBy.mp listed
  obtain ⟨before, after, rfl⟩ := List.append_of_mem member
  obtain ⟨thread, tenantId, present, task⟩ := executes
  have along : ((platform lib config).body thread.task).Along (Justified lib tenantId run.id)
      (fun _ _ => True) [] := by
    rw [task]
    exact along_task
  have unlisted : (doneBy i before).findSome? listedTools? = none := path.along_performed rfl present along
  rw [doneBy_append, doneBy_cons_self, List.findSome?_append, unlisted]
  rfl

namespace RunsWith

variable (path : Path (started lib config) events pool) (runs : RunsWith lib events i run tool isValid response)

include runs in
/-- The first tool is not deleted when the task executes a statement. -/
theorem not_deleted {before after : List (Event (platform lib config))} {middle : Pool (platform lib config)}
    {c : Choice} {what : Performed signature} (split : events = before ++ .performed i c what :: after)
    (earlier : Path (started lib config) before middle) : ¬ middle.shared.db.store.Deleted run.tenantId tool.id := by
  intro deleted
  obtain ⟨deletion, member, deletes⟩ := event_of_deleted earlier deleted
  obtain ⟨first, last, rfl⟩ := List.append_of_mem member
  have idle := runs.active first deletion (last ++ .performed i c what :: after)
    (by rw [split, List.append_assoc, List.cons_append]) deletes
  simp at idle

include path runs

/-- While the task is at work the first tool is read as it was listed. -/
theorem tool_read {past later : List (Performed signature)} {found : Option ToolRow} {rows : List ToolRow}
    {agentId : Uuid} (done : doneBy i events = past ++ ⟨.sql (.getTool run.tenantId tool.id), .ok found⟩ :: later)
    (listed : ⟨.sql (.listAgentTools run.tenantId agentId), .ok rows⟩ ∈ past) (member : tool ∈ rows) :
    ∃ row, found = some row ∧ tool.Later row ∧ row.deletedAt = none := by
  obtain ⟨before, c, after, rfl, mine, _⟩ := exists_cut_of_doneBy done
  obtain ⟨middle, next, earlier, step, _⟩ := path.cut
  obtain ⟨same, _⟩ := answer_of_select (executed (execute_of_step step)) rfl
  obtain ⟨⟨row, there, since⟩, owner, _⟩ := listed_of_read earlier (mine.symm ▸ listed) member
  have there_found : (middle.shared.db.store.findTool run.tenantId tool.id).isSome = true := by
    refine List.find?_isSome.mpr ⟨row, there, ?_⟩
    simp [since.tenantId, since.id, owner]
  obtain ⟨read, is_read⟩ := Option.isSome_iff_exists.mp there_found
  obtain ⟨present, tenant, id⟩ := Store.findTool_some is_read
  have valid : Valid lib middle.shared := valid_of_started earlier
  obtain rfl := valid.wellFormed.catalogue.ids.eq present there rfl (congrArg some (since.id.trans id.symm))
  refine ⟨read, same.trans is_read, since, ?_⟩
  by_contra gone
  exact runs.not_deleted rfl earlier ⟨read, present, tenant, id, gone⟩

/-- While the task is at work the first tool is bound to its agent. -/
theorem bound_read {past later : List (Performed signature)} {ids : List Uuid} {rows : List ToolRow} {agentId : Uuid}
    (done : doneBy i events = past ++ ⟨.sql (.getAgentToolIds run.tenantId agentId), .ok ids⟩ :: later)
    (listed : ⟨.sql (.listAgentTools run.tenantId agentId), .ok rows⟩ ∈ past)
    (member : tool ∈ rows) : tool.id ∈ ids := by
  obtain ⟨before, c, after, rfl, mine, _⟩ := exists_cut_of_doneBy done
  obtain ⟨middle, next, earlier, step, _⟩ := path.cut
  obtain ⟨_, _, bound⟩ := listed_of_read earlier (mine.symm ▸ listed) member
  exact (mem_agentToolIds (executed (execute_of_step step))).mpr bound

variable (present : run ∈ pool.shared.db.store.runs) (executes : Executes run.id pool i)
  (calm : ¬ run.ForcesInvalidCall)

include present executes calm

/-- A run that does not force an invalid call calls its first tool. -/
theorem decided {agentId toolId : Uuid} {tools : List ToolRecord} {force : Bool} {decision : LlmDecision}
    {arguments : Value} {reads past later : List (Performed signature)} (done : doneBy i events = past ++ later)
    (decided : Decided lib run.tenantId run.id agentId tools force decision reads past)
    (kind : decision.kind = .toolCall toolId arguments) :
    agentId = run.agentId ∧ toolId = tool.id ∧ ∃ before results rows, arguments = iterationArguments results ∧
      past = before ++ called run.tenantId run.id (results + 1) decision :: reads ∧
      ⟨.sql (.listAgentTools run.tenantId agentId), .ok rows⟩ ∈ before ∧ tool ∈ rows := by
  obtain ⟨before, iteration, rfl, prepared, picked⟩ := decided
  have within : before ⊆ doneBy i events := by
    rw [done, List.append_assoc]
    exact List.subset_append_left _ _
  obtain ⟨agentIs, _, forces, _⟩ := prepared.of_path path present within
  obtain ⟨_, _, rows, _, _, _, _, listed, rfl, _⟩ := prepared.reads
  cases picked with
  | forced found forced => exact absurd (forces.mp forced) calm
  | final => cases kind
  | ordinary results first used =>
    obtain ⟨rest, mine⟩ := runs.listed
    have once := (listed_once path executes mine).symm.trans (listed_once path executes (within listed))
    obtain rfl := Option.some.inj once
    cases first
    cases kind
    exact ⟨agentIs, rfl, before, results, _, rfl, rfl, listed, List.mem_cons_self⟩

/-- Every executed call of the run is a valid call of the first tool, with its response. -/
theorem executed {rounds : List Round} {decision : Option LlmDecision} {verdict : Verdict}
    (sound : run.Sound lib pool.shared.db.store (.ended rounds decision verdict)) {k : ℕ} {round : Round}
    (there : rounds[k]? = some round) : round.tool.id = tool.id ∧ round.tool.name = tool.name ∧
      round.result = response ∧ isValid (iterationArguments k) = true := by
  have recorded : (.toolExec, Payload.toolExec round.tool (iterationArguments k) round.result) ∈
      (Stage.ended rounds decision verdict).events := by
    have call : (.toolExec, Payload.toolExec round.tool (iterationArguments k) round.result) ∈
        (Stage.ended rounds decision verdict).events.filter fun event => event.1 == .toolExec := by
      rw [Stage.toolExecs_ended]
      exact List.mem_iff_getElem?.mpr ⟨k, by simp [there]⟩
    exact (List.mem_filter.mp call).1
  rw [← sound.events, trace_of_appended path] at recorded
  obtain ⟨j, c, member⟩ := event_of_appendedTo recorded
  obtain ⟨before, after, rfl⟩ := List.append_of_mem member
  obtain ⟨tenantId, runId, ⟨rfl, rfl, _⟩, executes', _, _, _, cleared, same⟩ :=
    justified_of_performed path (.inr (by simp))
  obtain rfl := executes_unique path executes executes'
  obtain @⟨agentId, toolId, _, _, decision', arguments, result, row, ids, decided, kind, _, _, _, _⟩ := cleared
  have done := doneBy_append i before (.performed i c ⟨.sql (.appendEvent run.tenantId run.id .toolExec
    (Payload.toolExec round.tool (iterationArguments k) round.result)), .ok ()⟩ :: after)
  have names : round.tool.id = tool.id := by
    have listed_id : round.tool.id = row.id := by
      have ids := congrArg (Value.get "tool_id") same
      exact Value.uuid_injective (Option.some.inj ids)
    obtain ⟨_, rfl, before', results, rows, _, history, _⟩ :=
      runs.decided path present executes calm done decided kind
    have read : ⟨.sql (.getTool run.tenantId tool.id), .ok (some row)⟩ ∈ doneBy i before := by
      rw [history]
      simp
    exact listed_id.trans (tool_of_read path (doneBy_subset i before _ read)).2.2
  obtain ⟨stored, inTable, _, id, name, ⟨valid', compiles, accepts⟩, _, stored', held, same⟩ :=
    (sound.authorised k round there).row
  obtain ⟨rest, listed⟩ := runs.listed
  obtain ⟨⟨later, found, since⟩, _, _⟩ := listed_of_read path listed List.mem_cons_self
  have valid : Valid lib pool.shared := valid_of_started path
  obtain rfl :=
    valid.wellFormed.catalogue.ids.eq inTable found rfl (congrArg some (since.id.trans (names.symm.trans id.symm)))
  rw [since.inputSchema] at compiles
  obtain rfl := Option.some.inj (runs.compiles.symm.trans compiles)
  have responds : (lib.decodeJson tool.mockHandler).get "response" = some response := runs.responds
  rw [lib.decodeJson_get, ← since.mockHandler, held] at responds
  exact ⟨names, name.symm.trans since.name, same.trans (Option.some.inj responds), accepts⟩

/-- A run that is rejected is rejected for the arguments of its last call. -/
theorem rejected {rounds : List Round} {decision : LlmDecision} {reason : String}
    (sound : run.Sound lib pool.shared.db.store (.ended rounds (some decision) (.failed reason)))
    (given : reason ∈ rejectionReasons) (succeeded : (doneBy i events).any failed = false) :
    reason = "invalid_tool_arguments" ∧ isValid (iterationArguments rounds.length) = false := by
  obtain ⟨before, after, rfl, fails⟩ := failsFor_of_errorReason path present executes sound.columns.errorReason given
  have done := doneBy_append i before after
  cases fails with
  | exhausted => exact absurd given (by decide)
  | broken failing => simp [done, failing] at succeeded
  | @rejected _ _ _ _ last _ _ _ decided kind refused =>
    obtain ⟨rfl, rfl, earlier, results, rows, rfl, history, listed, member⟩ :=
      runs.decided path present executes calm done decided kind
    have few : results ≤ rounds.length := by
      have decided_then : called run.tenantId run.id (results + 1) last ∈ doneBy i (before ++ after) := by
        rw [done, history]
        exact List.mem_append_left _ (List.mem_append_right _ List.mem_cons_self)
      have logged : (.llmCall, Payload.llmCall (results + 1) last.tracePayload) ∈ appendedTo run.tenantId run.id
          (before ++ after) :=
        mem_appendedTo decided_then
      rw [← trace_of_appended path, sound.events] at logged
      have last_one := Stage.iteration_le_ended logged
      omega
    have read {found : Option ToolRow} {more : List (Performed signature)} (reads : doneBy i before = earlier ++
        called run.tenantId run.id (results + 1) last :: ⟨.sql (.getTool run.tenantId tool.id), .ok found⟩ :: more) :
        ∃ row, found = some row ∧ tool.Later row ∧ row.deletedAt = none := by
      rw [reads, List.append_cons, List.append_assoc] at done
      exact runs.tool_read path done (List.mem_append_left _ listed) member
    cases refused with
    | missing =>
      obtain ⟨_, absurd, _⟩ := read history
      cases absurd
    | deleted gone =>
      obtain ⟨_, ⟨⟩, _, active⟩ := read history
      exact absurd active gone
    | unbound other =>
      rw [history, List.append_cons, List.append_cons _ _ [_], List.append_assoc] at done
      exact absurd (runs.bound_read path done (List.mem_append_left _ (List.mem_append_left _ listed)) member) other
    | uncompiled active bound bad =>
      obtain ⟨_, ⟨⟩, since, _⟩ := read history
      rw [since.schema, runs.compiles] at bad
      cases bad
    | invalid active bound compiled rejects =>
      obtain ⟨_, ⟨⟩, since, _⟩ := read history
      rw [since.schema, runs.compiles] at compiled
      cases compiled
      refine ⟨rfl, ?_⟩
      rcases Nat.lt_or_eq_of_le few with less | rfl
      · have executed := runs.executed path present executes calm sound (List.getElem?_eq_getElem less)
        exact absurd (executed.2.2.2.symm.trans rejects) (by decide)
      · exact rejects

end RunsWith

/-- No user message contains the sentinel. -/
theorem not_forces_of_messages {messages : List ChatMessage}
    (asked : run.inputMessages = ChatMessage.listToValue messages)
    (calm : ∀ message ∈ messages, message.role = "user" →
      ¬ invalidToolCallSentinel.toList <:+: message.content.toList) :
    ¬ run.ForcesInvalidCall := by
  rintro ⟨messages', asked', forces⟩
  obtain rfl := ChatMessage.listToValue_injective (asked.symm.trans asked')
  obtain ⟨message, member, requests⟩ := List.any_eq_true.mp forces
  simp only [messageRequestsInvalidToolCall, Bool.and_eq_true, beq_iff_eq] at requests
  exact calm message member requests.1 (containsText_iff.mp requests.2)

/-- A task that returns without a failed statement ends its run as the reference says, if the first tool that it
listed stays active and responds statically. Each executed call is a call of that tool. -/
theorem outcome_eq_reference (path : Path (started lib config) events pool)
    (present : run ∈ pool.shared.db.store.runs) {messages : List ChatMessage}
    (asked : run.inputMessages = ChatMessage.listToValue messages)
    (calm : ∀ message ∈ messages, message.role = "user" →
      ¬ invalidToolCallSentinel.toList <:+: message.content.toList) {result : Except AppError Response}
        (returned : pool.Returned i (.executeRun run.tenantId run.id) result)
    (succeeded : (doneBy i events).any failed = false) (runs : RunsWith lib events i run tool isValid response)
    {agent : AgentRow} (found : pool.shared.db.store.findAgent run.tenantId run.agentId = some agent) :
    run.outcome pool.shared.db.store =
      LoopOutcome.reference (fun k => isValid (iterationArguments k)) agent.maxIterations.toNat ∧
    ∀ k trace, (pool.shared.db.store.eventsOf run.tenantId run.id .toolExec)[k]? = some trace →
      trace.payload = Payload.toolExec (toolFromRow lib tool) (iterationArguments k) response := by
  have calm := not_forces_of_messages asked calm
  obtain ⟨owned, there⟩ := returned
  have executes : Executes run.id pool i := ⟨_, _, there, rfl⟩
  obtain ⟨rest, listed⟩ := runs.listed
  have finishes : ¬ Abandons lib run (doneBy i events) :=
    not_abandons (listed_once path executes listed) (executeMockHandler_ok.mpr ⟨runs.static, runs.responds⟩)
  obtain ⟨rounds, decision, verdict, sound⟩ := ended_of_succeeded path ⟨owned, there⟩ succeeded present rfl finishes
  have executed {k : ℕ} {round : Round} (there : rounds[k]? = some round) :=
    runs.executed path present executes calm sound there
  have llmCalls := congrArg List.length (sound.eventsOf .llmCall)
  have toolExecs := sound.eventsOf .toolExec
  rw [List.length_map, Stage.llmCalls_ended] at llmCalls
  rw [Stage.toolExecs_ended] at toolExecs
  have toolExecCount := congrArg List.length toolExecs
  rw [List.length_map, List.length_mapIdx] at toolExecCount
  refine ⟨?_, fun k trace at_k => ?_⟩
  · obtain ⟨agent', in_table, _, id, reached⟩ := sound.reachable
    obtain ⟨there, _, sameId⟩ := Store.findAgent_some found
    have valid : Valid lib pool.shared := valid_of_started path
    obtain rfl := valid.wellFormed.agents.ids.committed.eq in_table there rfl (congrArg some (sameId.trans id.symm))
    have accepted (k : ℕ) (before : k < rounds.length) : isValid (iterationArguments k) = true :=
      (executed (List.getElem?_eq_getElem before)).2.2.2
    have few : rounds.length ≤ 2 := Stage.Reachable.rounds_le reached
    have settled : Stage.SettledBy agent'.maxIterations.toNat rounds decision verdict :=
      Stage.Reachable.within reached
    rw [RunRow.outcome, sound.columns.status, sound.columns.errorReason,
      sound.columns.finalAnswer, llmCalls, toolExecCount]
    cases settled with
    | exhausted full =>
      rw [LoopOutcome.reference_accepted fun k less => accepted k (by omega), ← full, if_pos few]
      rfl
    | answered room two =>
      rw [LoopOutcome.reference_accepted fun k less => accepted k (by omega), if_neg (by omega), two]
      rfl
    | @rejected decision reason room fits called given =>
      obtain ⟨rfl, rejects⟩ := runs.rejected path present executes calm sound given succeeded
      rw [LoopOutcome.reference_rejected room (Stage.fits_lt_two fits called) accepted rejects]
      rfl
  · have event := congrArg (·[k]?) toolExecs
    simp only [List.getElem?_map, at_k, List.getElem?_mapIdx, Option.map_some] at event
    obtain ⟨round, there, same⟩ := Option.map_eq_some_iff.mp event.symm
    obtain ⟨id, name, responds, _⟩ := executed there
    have payload := congrArg Prod.snd same
    rw [responds] at payload
    apply payload.symm.trans
    simp only [Payload.toolExec, id, name]
    rfl

namespace Scenario

/-- The first tool that was listed for this run has a static response. -/
def listsStatic (run : RunRow) : Performed signature → Bool
  | ⟨.sql (.listAgentTools tenantId agentId), .ok (tool :: _)⟩ =>
      tenantId == run.tenantId && agentId == run.agentId &&
        (executeMockHandler (toolFromRow permissive tool).mockHandler).toBool
  | _ => false

theorem of_listsStatic {run : RunRow} {past : List (Performed signature)}
    (lists : past.any (listsStatic run) = true) :
    ∃ tool rest response, ⟨.sql (.listAgentTools run.tenantId run.agentId), .ok (tool :: rest)⟩ ∈ past ∧
      executeMockHandler (toolFromRow permissive tool).mockHandler = .ok response := by
  obtain ⟨what, member, hit⟩ := List.any_eq_true.mp lists
  unfold listsStatic at hit
  split at hit
  · next tenantId agentId tool rest =>
    simp only [Bool.and_eq_true, beq_iff_eq] at hit
    obtain ⟨⟨rfl, rfl⟩, responds⟩ := hit
    cases executed : executeMockHandler (toolFromRow permissive tool).mockHandler with
    | error fault => simp [executed, Except.toBool] at responds
    | ok response => exact ⟨tool, rest, response, member, executed⟩
  · cases hit

/-- No tool is deleted. -/
def keepsTools (events : List (Event (platform permissive config))) : Bool :=
  events.all fun
    | .performed _ _ ⟨.sql (.deleteTool ..), _⟩ => false
    | _ => true

theorem of_keepsTools {events : List (Event (platform permissive config))} (keeps : keepsTools events = true)
    {tenantId toolId : Uuid} {event : Event (platform permissive config)} (member : event ∈ events) :
    ¬ DeletesTool tenantId toolId event := by
  rintro ⟨i, c, count, rfl, _⟩
  cases List.all_eq_true.mp keeps _ member

end Scenario

/-- The served run of an agent with five iterations is answered after two calls. -/
theorem outcome_eq_reference_served : ∃ events pool, Path (started permissive ⟨1, 1⟩) events pool ∧
    ∃ run ∈ pool.shared.db.store.runs, run.outcome pool.shared.db.store = ⟨.success, none, true, 3, 2⟩ := by
  obtain ⟨events, pool, path, checked⟩ := (started permissive ⟨1, 1⟩).exists_path (serviceWith staticTool question 19)
    (fun events pool => completed 5 33 events pool && askedFor 33 question pool && keepsTools events &&
      (pool.shared.db.store.runs.all fun run => (doneBy 5 events).any (listsStatic run)) &&
      pool.shared.db.store.agents.all fun agent => agent.maxIterations == 5) (by decide +kernel)
  simp only [Bool.and_eq_true, List.all_eq_true, beq_iff_eq] at checked
  obtain ⟨⟨⟨⟨done, asked⟩, keeps⟩, lists⟩, five⟩ := checked
  obtain ⟨⟨tenantId, result, returned⟩, _, succeeded⟩ := of_completed done
  obtain ⟨run, present, id, asked⟩ := of_askedFor path asked
  rw [← tenant_of_returned path returned present id, ← id] at returned
  obtain ⟨tool, rest, response, listed, responds⟩ := of_listsStatic (lists run present)
  obtain ⟨static, response_is⟩ := executeMockHandler_ok.mp responds
  obtain ⟨agent, found⟩ := (valid_of_started path).findAgent present
  have runs : RunsWith permissive events 5 run tool (fun _ => true) response :=
    ⟨⟨rest, listed⟩, fun _ _ _ split deletes => (of_keepsTools keeps (by simp [split]) deletes).elim, rfl,
      static, response_is⟩
  have same := (outcome_eq_reference path present asked (by decide) returned succeeded runs found).1
  rw [five agent (Store.findAgent_some found).1] at same
  exact ⟨events, pool, path, run, present, same⟩

end AgentPlatform
