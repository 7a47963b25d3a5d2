import AgentPlatform.Guarantees.Completion
import AgentPlatform.Guarantees.Deletion
import AgentPlatform.Ownership.Readings

/-! # Forced invalid calls

A run whose messages contain the sentinel calls a tool that is not bound to its agent, or the nil UUID.
Bindings never grow after the agent was created and no tool has the nil UUID, so no such call is
authorised, whatever happens to the catalogue in the meantime.
-/

set_option autoImplicit false

namespace AgentPlatform

open Interleaving Relational Database Scenario

variable {lib : Libraries} {config : Config} {events before after : List (Event (platform lib config))}
  {pool : Pool (platform lib config)} {tenantId agentId runId toolId : Uuid} {i : ℕ} {run : RunRow}

/-- What was looked for outside the bindings of the agent is still outside of them. -/
theorem unbound_of_found (path : Path (started lib config) events pool) {past later : List (Performed signature)}
    {found : Option ToolRow} {row : AgentRow}
    (done : doneBy i events = past ++ ⟨.sql (.findUnboundActiveTool run.tenantId run.agentId), .ok found⟩ :: later)
    (read : ⟨.sql (.getAgent run.tenantId run.agentId), .ok (some row)⟩ ∈ past) :
    ∀ binding ∈ pool.shared.db.store.bindings run.tenantId run.agentId,
      binding.toolId ≠ (found.map ToolRow.id).getD Uuid.nil := by
  obtain ⟨first, c, rest, rfl, mine, _⟩ := exists_cut_of_doneBy done
  obtain ⟨middle, next, earlier, step, onward⟩ := path.cut
  obtain ⟨there, _, id⟩ := agent_of_read earlier (mine.symm ▸ read)
  have knows : Knows run row (middle.shared.db.store.bindings run.tenantId run.agentId) [] middle.shared.db.store :=
    ⟨there, rfl, by simp⟩
  intro binding bound
  rw [← id, bindings_of_path earlier ((Path.single step).append onward) there, id] at bound
  exact knows.unbound (valid_of_started earlier) (executed (execute_of_step step)) binding bound

/-- The reads that come before a decision, in a run that forces it. -/
theorem Picked.of_forced (path : Path (started lib config) events pool) {tools : List ToolRecord} {force : Bool}
    {iteration : Int} {decision : LlmDecision} {past later : List (Performed signature)} {arguments : Value}
    (done : doneBy i events = past ++ later) (present : run ∈ pool.shared.db.store.runs)
    (forces : run.ForcesInvalidCall) (prepared : Prepared lib run.tenantId run.id agentId tools force past)
    (picked : Picked run.tenantId run.id agentId tools force past iteration decision)
    (kind : decision.kind = .toolCall toolId arguments) : agentId = run.agentId ∧
    ((∃ payload, ⟨.sql (.appendEvent run.tenantId run.id .toolExec payload), .ok ()⟩ ∈ past) ∨
    ∃ earlier found, past = earlier ++ [⟨.sql (.findUnboundActiveTool run.tenantId run.agentId), .ok found⟩] ∧
      decision = .forced toolId ∧ toolId = (found.map ToolRow.id).getD Uuid.nil ∧
      ∀ binding ∈ pool.shared.db.store.bindings run.tenantId run.agentId, binding.toolId ≠ toolId) := by
  have within : past ⊆ doneBy i events := by
    rw [done]
    exact List.subset_append_left _ _
  obtain ⟨rfl, _, forces_iff, _⟩ := prepared.of_path path present within
  refine ⟨rfl, ?_⟩
  cases picked with
  | final => cases kind
  | ordinary results first used => exact .inl (used (forces_iff.mpr forces))
  | @forced earlier _ found _ =>
    cases kind
    obtain ⟨read, row, rows, messages, got, agentRead, id, _⟩ := prepared.reads
    have same := run_of_read path present (within got)
    rw [same.agentId.symm] at agentRead
    have before_find : ⟨.sql (.getAgent run.tenantId run.agentId), .ok (some row)⟩ ∈ earlier := by
      rcases List.mem_append.mp agentRead with old | new
      · exact old
      · cases List.mem_singleton.mp new
    refine .inr ⟨earlier, found, rfl, rfl, rfl, ?_⟩
    exact unbound_of_found path (by rw [done, List.append_assoc, List.singleton_append]) before_find

/-- A forced run does not execute a tool call. -/
theorem not_executed_of_forced (path : Path (started lib config) events pool)
    (present : run ∈ pool.shared.db.store.runs) (forces : run.ForcesInvalidCall) {c : Choice} {payload : Value}
    (split : events = before ++
      .performed i c ⟨.sql (.appendEvent run.tenantId run.id .toolExec payload), .ok ()⟩ :: after) : False := by
  induction size : before.length using Nat.strong_induction_on generalizing before i c payload after with
  | h n ih =>
    subst split
    obtain ⟨tenantId, runId, ⟨rfl, rfl, _⟩, _, _, arguments, result, cleared, _⟩ :=
      justified_of_performed path (.inr (by decide))
    obtain @⟨_, toolId, _, _, _, _, _, row, ids, ⟨past, iteration, history, prepared, picked⟩,
      kind, _, bound, _, _⟩ := cleared
    have done := doneBy_append i before
        (.performed i c ⟨.sql (.appendEvent run.tenantId run.id .toolExec payload), .ok ()⟩ :: after)
    rw [history, List.append_assoc] at done
    obtain ⟨rfl, executed | ⟨_, _, _, _, _, unbound⟩⟩ := picked.of_forced path done present forces prepared kind
    · -- the call was an ordinary one, so another call was executed before it
      obtain ⟨payload', earlier⟩ := executed
      have earlier : ⟨.sql (.appendEvent run.tenantId run.id .toolExec payload'), .ok ()⟩ ∈ doneBy i before := by
        rw [history]
        exact List.mem_append_left _ earlier
      obtain ⟨c', member⟩ := mem_doneBy.mp earlier
      obtain ⟨first, rest, rfl⟩ := List.append_of_mem member
      have shorter : first.length < n := by
        rw [← size, List.length_append, List.length_cons]
        omega
      exact ih first.length shorter (by rw [List.append_assoc, List.cons_append]) rfl
    · have read : ⟨.sql (.getAgentToolIds run.tenantId run.agentId), .ok ids⟩ ∈ doneBy i before := by
        rw [history]
        simp
      obtain ⟨binding, there, same⟩ := binding_of_read path (doneBy_subset i before _ read) bound
      exact unbound binding there same

/-! ## The end of a forced run -/

/-- The events of a run that are of one type. -/
def Store.eventsOf (s : Store) (tenantId runId : Uuid) (type : EventType) : List TraceRow :=
  (s.traceRows tenantId runId).filter fun trace => trace.type == type

theorem RunRow.Sound.eventsOf {s : Store} {stage : Stage} (sound : run.Sound lib s stage) (type : EventType) :
    (s.eventsOf run.tenantId run.id type).map TraceRow.event = stage.events.filter fun event => event.1 == type := by
  rw [← sound.events, List.filter_map]
  rfl

theorem eventsOf_toolExec_of_forced (path : Path (started lib config) events pool)
    (present : run ∈ pool.shared.db.store.runs) (forces : run.ForcesInvalidCall) :
    pool.shared.db.store.eventsOf run.tenantId run.id .toolExec = [] := by
  apply List.filter_eq_nil_iff.mpr
  intro trace member executed
  have logged := List.mem_map_of_mem (f := TraceRow.event) member
  rw [trace_of_appended path] at logged
  obtain ⟨i, c, there⟩ := event_of_appendedTo logged
  obtain ⟨before, after, split⟩ := List.append_of_mem there
  rw [TraceRow.event, eq_of_beq executed] at split
  exact not_executed_of_forced path present forces split

/-- A run without executed calls has made one decision when it fails on a call. -/
theorem Stage.eventsOf_rejected (decision : LlmDecision) (verdict : Verdict) :
    ((ended [] (some decision) verdict).events.filter fun event => event.1 == .llmCall) =
      [(.llmCall, Payload.llmCall 1 decision.tracePayload)] := by
  simp [events, loopEvents, opening, admission, announcement, roundEvents, decisionEvents]

/-- The tool that was looked for was deleted before it was read. -/
def DeletedWhenRead (run : RunRow) (events : List (Event (platform lib config))) : Prop :=
  ∃ before i c tool between c' row after,
    events = before ++ .performed i c ⟨.sql (.findUnboundActiveTool run.tenantId run.agentId), .ok (some tool)⟩ ::
      (between ++ .performed i c' ⟨.sql (.getTool run.tenantId tool.id), .ok (some row)⟩ :: after) ∧
    ∃ deletion ∈ between, DeletesTool run.tenantId tool.id deletion

/-- A run that fails on a deleted tool in its forced call has looked for the tool before it was deleted. -/
theorem deletedWhenRead_of_history (path : Path (started lib config) (before ++ after) pool)
    {earlier : List (Performed signature)} {found : Option ToolRow} {row : ToolRow} {called : Performed signature}
    (history : doneBy i before = earlier ++
      [⟨.sql (.findUnboundActiveTool run.tenantId run.agentId), .ok found⟩, called,
      ⟨.sql (.getTool run.tenantId ((found.map ToolRow.id).getD Uuid.nil)), .ok (some row)⟩])
        (gone : row.deletedAt ≠ none) :
    DeletedWhenRead run (before ++ after) := by
  obtain ⟨first, c, rest, rfl, _, reads⟩ := exists_cut_of_doneBy history
  have reads : doneBy i rest = [called] ++
      ⟨.sql (.getTool run.tenantId ((found.map ToolRow.id).getD Uuid.nil)), .ok (some row)⟩ :: [] := reads
  obtain ⟨between, c', last, rfl, _, _⟩ := exists_cut_of_doneBy reads
  rw [List.append_assoc, List.cons_append, List.append_assoc, List.cons_append] at path ⊢
  obtain ⟨middle, next, until_found, finding, onward⟩ := path.cut
  obtain ⟨there, state, until_read, reading, _⟩ := onward.cut
  have readable := (until_found.snoc finding).append until_read
  have valid : Valid lib there.shared := valid_of_started readable
  obtain ⟨present, owner, id⟩ := findTool_of_step reading
  cases found with
  | none => exact absurd id (valid.wellFormed.catalogue.generated row present)
  | some tool =>
    refine ⟨first, i, c, tool, between, c', row, _, rfl, ?_⟩
    obtain ⟨deletion, member, deletes⟩ := event_of_deleted readable ⟨row, present, owner, id, gone⟩
    rcases List.mem_append.mp member with old | new
    · rcases List.mem_append.mp old with old | now
      · -- the tool was still active when it was looked for
        obtain ⟨marked, stored, _, sameId, dead⟩ := deleted_of_event until_found old deletes
        obtain ⟨same, _⟩ := answer_of_select (executed (execute_of_step finding)) rfl
        have listed := List.mem_of_mem_head? same.symm
        simp only [orderByCreatedAt, List.mem_insertionSort, Store.unboundTools, List.mem_filter, Store.activeTools,
          Bool.and_eq_true, beq_iff_eq] at listed
        obtain ⟨⟨active, _, alive⟩, _⟩ := listed
        have unique : Valid lib middle.shared := valid_of_started until_found
        rw [unique.wellFormed.catalogue.ids.eq stored active rfl (congrArg some sameId.symm)] at dead
        exact absurd alive dead
      · obtain ⟨j, d, count, happened, _⟩ := deletes
        cases (List.mem_singleton.mp now).symm.trans happened
    · exact ⟨deletion, new, deletes⟩

private theorem rejection_not_capacity : ∀ reason ∈ rejectionReasons, reason ∉ capacityReasons := by decide

/-- The history of a task has the reason for which its run was rejected. -/
theorem failsFor_of_errorReason (path : Path (started lib config) events pool)
    (present : run ∈ pool.shared.db.store.runs) (executes : Executes run.id pool i) {reason : String}
    (given : run.errorReason = some reason) (rejected : reason ∈ rejectionReasons) :
    ∃ before after, events = before ++ after ∧ FailsFor lib run.tenantId run.id (doneBy i before) reason := by
  obtain ⟨j, c, ⟨op, answer⟩, status, finalAnswer, member, rfl⟩ :=
    event_of_errorReason path present given (rejection_not_capacity reason rejected)
  obtain ⟨before, after, rfl⟩ := List.append_of_mem member
  obtain ⟨tenantId, runId, ⟨rfl, rfl⟩, executes', justified⟩ := justified_of_performed path True.intro
  obtain rfl := executes_unique path executes executes'
  exact ⟨before, _, rfl, justified reason rfl⟩

/-- Why a forced run that loses no statement fails. -/
theorem reason_of_forced (path : Path (started lib config) events pool) (present : run ∈ pool.shared.db.store.runs)
    (forces : run.ForcesInvalidCall) {result : Except AppError Response}
    (returned : pool.Returned i (.executeRun run.tenantId run.id) result)
    (succeeded : (doneBy i events).any failed = false) {reason : String} (given : run.errorReason = some reason)
    (rejected : reason ∈ rejectionReasons) :
    reason = "tool_not_allowed_for_agent" ∨ reason = "tool_deleted" ∧ DeletedWhenRead run events := by
  obtain ⟨owned, there⟩ := returned
  obtain ⟨before, after, rfl, fails⟩ := failsFor_of_errorReason path present ⟨_, _, there, rfl⟩ given rejected
  have done := doneBy_append i before after
  cases fails with
  | exhausted => exact absurd rejected (by decide)
  | broken failing => simp [done, failing] at succeeded
  | rejected decided kind refused =>
    obtain ⟨past, iteration, history, prepared, picked⟩ := decided
    rw [history, List.append_assoc] at done
    obtain ⟨rfl, ⟨payload, executed⟩ | ⟨earlier, found, rfl, rfl, rfl, unbound⟩⟩ :=
      picked.of_forced path done present forces prepared kind
    · have executed : ⟨.sql (.appendEvent run.tenantId run.id .toolExec payload), .ok ()⟩ ∈ doneBy i before := by
        rw [history]
        exact List.mem_append_left _ executed
      obtain ⟨c', member⟩ := mem_doneBy.mp executed
      obtain ⟨first, rest, rfl⟩ := List.append_of_mem member
      exact (not_executed_of_forced path present forces (by rw [List.append_assoc, List.cons_append])).elim
    · have bound_absurd {ids : List Uuid}
          (read : ⟨.sql (.getAgentToolIds run.tenantId run.agentId), .ok ids⟩ ∈ doneBy i before)
          (bound : (found.map ToolRow.id).getD Uuid.nil ∈ ids) : False := by
        obtain ⟨binding, there, same⟩ := binding_of_read path (doneBy_subset i before _ read) bound
        exact unbound binding there same
      cases refused with
      | missing => exact .inl rfl
      | unbound other => exact .inl rfl
      | uncompiled active bound bad => exact (bound_absurd (by rw [history]; simp) bound).elim
      | invalid active bound compiled rejects => exact (bound_absurd (by rw [history]; simp) bound).elim
      | @deleted row gone =>
        have reads : doneBy i before = earlier ++
            [⟨.sql (.findUnboundActiveTool run.tenantId run.agentId), .ok found⟩,
            called run.tenantId run.id iteration (.forced ((found.map ToolRow.id).getD Uuid.nil)),
            ⟨.sql (.getTool run.tenantId ((found.map ToolRow.id).getD Uuid.nil)), .ok (some row)⟩] := by
          rw [history, List.append_assoc]
          rfl
        exact .inr ⟨rfl, deletedWhenRead_of_history path reads gone⟩

/-- A run whose messages contain the sentinel never executes a tool call. When its task has returned without a
failed statement, the run has failed after one decision: the tool was not allowed, or it was deleted meanwhile. -/
theorem forced_call_refused (path : Path (started lib config) events pool) (present : run ∈ pool.shared.db.store.runs)
    {messages : List ChatMessage} (asked : run.inputMessages = ChatMessage.listToValue messages)
    {message : ChatMessage} (member : message ∈ messages) (user : message.role = "user")
    (sentinel : invalidToolCallSentinel.toList <:+: message.content.toList) :
    pool.shared.db.store.eventsOf run.tenantId run.id .toolExec = [] ∧
    ∀ i result, pool.Returned i (.executeRun run.tenantId run.id) result → (doneBy i events).any failed = false →
      run.status = .failed ∧ (pool.shared.db.store.eventsOf run.tenantId run.id .llmCall).length = 1 ∧
      (run.errorReason = some "tool_not_allowed_for_agent" ∨
        run.errorReason = some "tool_deleted" ∧ DeletedWhenRead run events) := by
  have forces : run.ForcesInvalidCall := by
    refine ⟨messages, asked, List.any_eq_true.mpr ⟨message, member, ?_⟩⟩
    rw [messageRequestsInvalidToolCall, user, containsText_iff.mpr sentinel]
    rfl
  have silent := eventsOf_toolExec_of_forced path present forces
  refine ⟨silent, fun i result returned succeeded => ?_⟩
  obtain ⟨rounds, decision, verdict, sound⟩ :=
    ended_of_succeeded path returned succeeded present rfl fun abandons => abandons.1 forces
  have none_executed : rounds = [] := by
    have events := sound.eventsOf .toolExec
    rw [silent, List.map_nil] at events
    cases rounds with
    | nil => rfl
    | cons round rest => simp [Stage.events, Stage.loopEvents, Stage.roundEvents] at events
  subst none_executed
  obtain ⟨agent, there, _, _, reached⟩ := sound.reachable
  obtain ⟨positive, _⟩ := (valid_of_started path).wellFormed.agents.iterations agent (mem_everything.mpr (.inl there))
  have settled : Stage.SettledBy agent.maxIterations.toNat [] decision verdict := Stage.Reachable.within reached
  cases settled with
  | exhausted full =>
    rw [List.length_nil] at full
    omega
  | answered room two => cases two
  | @rejected decision reason room fits called rejected =>
    have given : run.errorReason = some reason := sound.columns.errorReason
    refine ⟨sound.columns.status, ?_, ?_⟩
    · have once := congrArg List.length (sound.eventsOf .llmCall)
      rw [Stage.eventsOf_rejected, List.length_map] at once
      exact once
    · rcases reason_of_forced path present forces returned succeeded given rejected with rfl | ⟨rfl, deleted⟩
      · exact .inl given
      · exact .inr ⟨given, deleted⟩

namespace Scenario

/-- A question that forces an invalid call. -/
def forcing : StartRunRequest := ⟨[⟨"system", "Be brief."⟩, ⟨"user", "Now __force_invalid_tool_call__ please."⟩]⟩

/-- This run was asked this. -/
def askedFor (runId : Uuid) (asked : StartRunRequest) (pool : Pool (platform permissive config)) : Bool :=
  pool.shared.db.store.runs.any fun run => run.id == runId &&
    ChatMessage.listFromValue run.inputMessages == some asked.messages

theorem of_askedFor {events : List (Event (platform permissive config))} {pool : Pool (platform permissive config)}
    {runId : Uuid} {asked : StartRunRequest} (path : Path (started permissive config) events pool)
    (checked : askedFor runId asked pool = true) :
    ∃ run ∈ pool.shared.db.store.runs, run.id = runId ∧
      run.inputMessages = ChatMessage.listToValue asked.messages := by
  simp only [askedFor, List.any_eq_true, Bool.and_eq_true, beq_iff_eq] at checked
  obtain ⟨run, present, id, decoded⟩ := checked
  obtain ⟨original, stated⟩ :=
    (valid_of_started path).wellFormed.runs.messages run (mem_everything.mpr (.inl present))
  rw [stated, ChatMessage.listFromValue_listToValue] at decoded
  obtain rfl := Option.some.inj decoded
  exact ⟨run, present, id, stated⟩

end Scenario

/-- The agent has one tool, so the forced call names the nil UUID. -/
theorem forced_call_refused_served : ∃ events pool, Path (started permissive ⟨1, 1⟩) events pool ∧
    ∃ run ∈ pool.shared.db.store.runs, run.status = .failed ∧
      pool.shared.db.store.eventsOf run.tenantId run.id .toolExec = [] ∧
      (pool.shared.db.store.eventsOf run.tenantId run.id .llmCall).length = 1 := by
  obtain ⟨events, pool, path, checked⟩ := (started permissive ⟨1, 1⟩).exists_path (serviceWith staticTool forcing 13)
    (fun events pool => completed 5 33 events pool && askedFor 33 forcing pool) (by decide +kernel)
  obtain ⟨done, asked⟩ := Bool.and_eq_true_iff.mp checked
  obtain ⟨⟨tenantId, result, returned⟩, began, succeeded⟩ := of_completed done
  obtain ⟨run, present, id, asked⟩ := of_askedFor path asked
  rw [← tenant_of_returned path returned present id, ← id] at returned
  obtain ⟨silent, ends⟩ := forced_call_refused path present asked (List.mem_cons_of_mem _ List.mem_cons_self) rfl
    (containsText_iff.mp (by decide))
  obtain ⟨failed, once, _⟩ := ends 5 result returned succeeded
  exact ⟨events, pool, path, run, present, failed, silent, once⟩

end AgentPlatform
