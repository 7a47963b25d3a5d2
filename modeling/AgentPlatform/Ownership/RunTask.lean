import AgentPlatform.Ownership.Execution

/-! # From the spawn to the drop of the permits

What `execute_run` does around the loop: it starts the run, reads the run, its agent and the tools
of the agent, and the spawned task drops its permits in the end.
-/

set_option autoImplicit false

namespace AgentPlatform

open Interleaving Relational Database

variable {lib : Libraries} {config : Config} {task : Task} {permits : List SemaphoreRef} {w : World}
  {past : List (Performed signature)} {request : RunRow}

/-! ## Reading the run -/

theorem Store.findRun_some {s : Store} {tenantId runId : Uuid} {row : RunRow}
    (found : s.findRun tenantId runId = some row) : row ∈ s.runs ∧ row.tenantId = tenantId ∧ row.id = runId := by
  have hit := List.find?_some found
  simp only [Bool.and_eq_true, beq_iff_eq] at hit
  exact ⟨List.mem_of_find?_eq_some found, hit⟩

theorem Store.findAgent_some {s : Store} {tenantId agentId : Uuid} {row : AgentRow}
    (found : s.findAgent tenantId agentId = some row) :
    row ∈ s.agents ∧ row.tenantId = tenantId ∧ row.id = agentId := by
  have hit := List.find?_some found
  simp only [Bool.and_eq_true, beq_iff_eq] at hit
  exact ⟨List.mem_of_find?_eq_some found, hit.1⟩

/-- A run is found by its key. -/
theorem Valid.findRun (valid : Valid lib w) (stored : ∃ run ∈ w.db.store.runs, request.SameRequest run) :
    ∃ run, w.db.store.findRun request.tenantId request.id = some run ∧ run ∈ w.db.store.runs ∧
      request.SameRequest run := by
  obtain ⟨run, present, asked⟩ := stored
  cases found : w.db.store.findRun request.tenantId request.id with
  | none =>
    have absent := List.find?_eq_none.mp found run present
    simp [asked.tenantId, asked.id] at absent
  | some other =>
    obtain ⟨there, _, id⟩ := Store.findRun_some found
    rw [valid.unique present there (id.trans asked.id.symm)]
    exact ⟨run, rfl, present, asked⟩

theorem InStage.found {stage : Stage} (valid : Valid lib w) (now : InStage lib w request stage) :
    ∃ run, w.db.store.findRun request.tenantId request.id = some run ∧ run ∈ w.db.store.runs ∧
      request.SameRequest run := by
  obtain ⟨run, present, asked, _⟩ := now
  exact valid.findRun ⟨run, present, asked⟩

/-- The agent of a run is found: agents are not deleted. -/
theorem Valid.findAgent {run : RunRow} (valid : Valid lib w) (present : run ∈ w.db.store.runs) :
    ∃ agent, w.db.store.findAgent run.tenantId run.agentId = some agent := by
  obtain ⟨agent, there, tenantId, id⟩ := valid.wellFormed.runs.agent run present
  refine Option.isSome_iff_exists.mp (List.find?_isSome.mpr ⟨agent, there, ?_⟩)
  have active := valid.wellFormed.agents.active agent (mem_everything.mpr (.inl there))
  simp [tenantId, id, active]

/-- The tools that `list_agent_tools` answers belong to the tenant and are bound. -/
theorem mem_listAgentTools {c : Choice} {db db' : Database} {tenantId agentId : Uuid} {rows : List ToolRow}
    (ran : Executed c db (.listAgentTools tenantId agentId) (.ok rows) db') {tool : ToolRow} (member : tool ∈ rows) :
    tool ∈ db.store.tools ∧ tool.tenantId = tenantId ∧
      ∃ binding ∈ db.store.bindings tenantId agentId, binding.toolId = tool.id := by
  obtain ⟨rfl, _⟩ := answer_of_select ran rfl
  obtain ⟨binding, ordered, joined⟩ := List.mem_flatMap.mp member
  simp only [orderByCreatedAt, List.mem_insertionSort] at ordered
  obtain ⟨present, hit⟩ := List.mem_filter.mp joined
  simp only [Bool.and_eq_true, beq_iff_eq] at hit
  have owner := (List.mem_filter.mp ordered).2
  simp only [Bool.and_eq_true, beq_iff_eq] at owner
  exact ⟨present, hit.1.trans owner.1, binding, ordered, hit.2.symm⟩

/-! ## The loop with what was read -/

/-- A history without failures in which no tools have been read yet. -/
structure Unread (past : List (Performed signature)) : Prop where
  listed : past.findSome? listedTools? = none
  read : past.findSome? readTool? = none
  healthy : past.any failed = false

theorem Unread.append {what : Performed signature} (unread : Unread past) (unlisted : listedTools? what = none)
    (toolless : readTool? what = none) (fine : failed what = false) : Unread (past ++ [what]) where
  listed := by rw [List.findSome?_append, unread.listed]; simp [unlisted]
  read := by rw [List.findSome?_append, unread.read]; simp [toolless]
  healthy := by simp [unread.healthy, fine]

theorem Unread.told {tenantId agentId : Uuid} {tools : List ToolRow} (unread : Unread past) :
    Told (past ++ [⟨.sql (.listAgentTools tenantId agentId), .ok tools⟩]) tools none where
  listed := by rw [List.findSome?_append, unread.listed]; rfl
  read := by rw [List.findSome?_append, unread.read]; rfl
  healthy := by simp [unread.healthy, failed]

/-- The part of `execute_run` from the query for the tools on. -/
theorem safe_boundTools {agent : AgentRow} {messages : List ChatMessage}
    (acts : ∀ s, task.ActsFor lib s request.tenantId) (id : agent.id = request.agentId)
    (asked : request.inputMessages = ChatMessage.listToValue messages)
    (unread : Unread past) (known : agent ∈ w.db.store.agents) (now : InStage lib w request (.looping [])) :
    (ownership lib config).Safe task (Leaves lib config request permits)
      (do
        let boundTools ← Db.listAgentTools lib request.tenantId (agentFromRow agent).id
        let messages ← okOr (ChatMessage.listFromValue (lib.decodeJson request.inputMessages)) .serdeJson
        agentLoop lib request.tenantId request.id (agentFromRow agent) boundTools
          (messages.any messageRequestsInvalidToolCall) (agentFromRow agent).maxIterations.toNat 1 0 false)
      {.run request.id} permits w past := by
  have owner : Token.run request.id ∈ ({.run request.id} : Set Token) := Set.mem_singleton _
  have lasting : Lasting fun s => agent ∈ s.agents := fun _ _ evolves known => evolves.agents.subset known
  refine safe_unowned rfl (lasting.persistent.and (persistent_inStage owner)) ⟨known, now⟩ ?_ ?_
  · rintro w knows tenant ⟨⟩
    exact acts _
  intro before after c answer _ knows _ valid ran
  cases answer with
  | error fault => exact safe_leave knows.2 (.of_failed rfl)
  | ok tools =>
    have unchanged : after.db = before.db := by
      generalize after.db = db at ran
      exact (answer_of_select ran rfl).2
    have listed (tool : ToolRow) (member : tool ∈ tools) := mem_listAgentTools ran member
    rw [← unchanged, show (agentFromRow agent).id = request.agentId from id] at listed
    have known : Knows request agent
        (after.db.store.bindings request.tenantId request.agentId) tools after.db.store :=
      ⟨knows.1, rfl, fun tool member => ⟨tool, (listed tool member).1, .refl tool⟩⟩
    have positive : 0 < agent.maxIterations.toNat := by
      have := (valid.wellFormed.agents.iterations agent (mem_everything.mpr (.inl knows.1))).1
      omega
    have decoded : ChatMessage.listFromValue (lib.decodeJson request.inputMessages) = some messages := by
      rw [ChatMessage.listFromValue_decodeJson, asked, ChatMessage.listFromValue_listToValue]
    have continues : (ownership lib config).Safe task (Leaves lib config request permits)
        (agentLoop lib request.tenantId request.id (agentFromRow agent) (tools.map (toolFromRow lib))
          (messages.any messageRequestsInvalidToolCall) agent.maxIterations.toNat 1 0 false)
        {.run request.id} permits after
        (past ++ [⟨.sql (.listAgentTools request.tenantId (agentFromRow agent).id), .ok tools⟩]) := by
      cases forces : messages.any messageRequestsInvalidToolCall with
      | true => exact safe_forcedLoop acts id positive ⟨messages, asked, forces⟩ unread.told known knows.2
      | false =>
        refine safe_agentLoop acts id (fun tool member => (listed tool member).2) positive ?_ _ [] false after _ none
          (Nat.zero_add _) (Nat.zero_le _) unread.told (fun _ => rfl)
            (fun some_round => absurd rfl some_round) known knows.2
        rintro ⟨other, same, forced⟩
        have decoded' := ChatMessage.listFromValue_listToValue other
        rw [← same, ← ChatMessage.listFromValue_decodeJson lib, decoded] at decoded'
        cases decoded'
        exact nomatch forces.symm.trans forced
    change (ownership lib config).Safe task _
      (okOr (ChatMessage.listFromValue (lib.decodeJson request.inputMessages)) .serdeJson >>= _) _ _ _ _
    rw [decoded]
    exact continues

/-- The part of `execute_run` from the query for the agent on. -/
theorem safe_agent (acts : ∀ s, task.ActsFor lib s request.tenantId) {agentId : Uuid} {inputMessages : Value}
    {messages : List ChatMessage} (sameAgent : agentId = request.agentId)
    (sameMessages : inputMessages = lib.decodeJson request.inputMessages)
    (asked : request.inputMessages = ChatMessage.listToValue messages) (unread : Unread past)
    (now : InStage lib w request (.looping [])) :
    (ownership lib config).Safe task (Leaves lib config request permits)
      (do
        let agent ← okOr (← Db.getAgent request.tenantId agentId) .notFound
        let boundTools ← Db.listAgentTools lib request.tenantId agent.id
        let messages ← okOr (ChatMessage.listFromValue inputMessages) .serdeJson
        agentLoop lib request.tenantId request.id agent boundTools (messages.any messageRequestsInvalidToolCall)
          agent.maxIterations.toNat 1 0 false)
      {.run request.id} permits w past := by
  subst sameAgent sameMessages
  have owner : Token.run request.id ∈ ({.run request.id} : Set Token) := Set.mem_singleton _
  refine safe_unowned rfl (persistent_inStage owner) now ?_ ?_
  · rintro w _ tenant ⟨⟩
    exact acts _
  intro before after c answer stands stands' valid _ ran
  cases answer with
  | error fault => exact safe_leave stands' (.of_failed rfl)
  | ok agent =>
    obtain ⟨run, _, present, same⟩ := stands.found valid
    obtain ⟨other, found⟩ := valid.findAgent present
    rw [same.tenantId, same.agentId] at found
    obtain ⟨rfl, unchanged⟩ : agent = some other ∧ after.db = before.db := by
      generalize after.db = db at ran
      obtain ⟨answered, rest⟩ := answer_of_select ran rfl
      exact ⟨answered.trans found, rest⟩
    obtain ⟨there, _, id⟩ := Store.findAgent_some found
    exact safe_boundTools acts id asked (unread.append rfl rfl rfl) (unchanged ▸ there) stands'

/-- What `execute_run` does with a run it has started. -/
theorem safe_executeStartedRun (acts : ∀ s, task.ActsFor lib s request.tenantId) (unread : Unread past)
    (now : InStage lib w request .started) :
    (ownership lib config).Safe task (Leaves lib config request permits)
      (executeStartedRun lib request.tenantId request.id) {.run request.id} permits w past := by
  have owner : Token.run request.id ∈ ({.run request.id} : Set Token) := Set.mem_singleton _
  refine safe_appendEvent .admitted owner Lasting.trivial True.intro now (fun s _ => acts s)
    (fun _ _ _ _ _ => .accept)
    rfl rfl (fun _ _ _ _ found => .inl found) ?_ fun t fault _ stands => safe_leave stands (.of_failed rfl)
  intro t _ stands
  refine safe_appendEvent (.looping []) owner Lasting.trivial True.intro stands (fun s _ => acts s)
    (fun _ _ _ _ _ => .enter)
    rfl rfl (fun _ _ _ _ found => .inl found) ?_ fun t fault _ stands => safe_leave stands (.of_failed rfl)
  intro t _ stands
  refine safe_unowned rfl (persistent_inStage owner) stands ?_ ?_
  · rintro w _ tenant ⟨⟩
    exact acts _
  intro before after c answer stands stands' valid _ ran
  cases answer with
  | error fault => exact safe_leave stands' (.of_failed rfl)
  | ok row =>
    obtain ⟨run, found, present, asked⟩ := stands.found valid
    obtain ⟨messages, sent⟩ := valid.wellFormed.runs.messages run (mem_everything.mpr (.inl present))
    obtain rfl := (answer_of_select ran rfl).1.trans found
    exact safe_agent acts asked.agentId (congrArg lib.decodeJson asked.inputMessages) (asked.inputMessages ▸ sent)
      (((unread.append rfl rfl rfl).append rfl rfl rfl).append rfl rfl rfl) stands'

/-- `execute_run` on a run that has been announced: it always starts it. -/
theorem safe_executeRun (acts : ∀ s, task.ActsFor lib s request.tenantId) (unread : Unread past)
    (now : InStage lib w request .announced) :
    (ownership lib config).Safe task (Leaves lib config request permits)
      (executeRun lib request.tenantId request.id) {.run request.id} permits w past := by
  refine safe_beginRunExecution (Set.mem_singleton _) Lasting.trivial True.intro now (fun s _ => acts s) ?_
    fun t fault _ stands => safe_leave stands (.of_failed rfl)
  exact fun t _ stands => safe_executeStartedRun acts (unread.append rfl rfl rfl) stands

/-! ## The permits -/

/-- A thread drops a permit that it holds. -/
theorem safe_dropPermit {ε α : Type} {post : Except ε α → (ownership lib config).Assertion} {claim : Set Token}
    {semaphore : SemaphoreRef} {left : List SemaphoreRef} {next : Unit → Program signature ε α} {P : World → Prop}
    (persistent : Persistent lib claim P) (known : P w) (held : semaphore ∈ permits)
    (remains : permits.erase semaphore = left) (may : ∀ s, MayHold lib task s left)
    (rest : ∀ t, P t → (ownership lib config).Safe task post (next ()) claim left t
      (past ++ [⟨.dropPermit semaphore, ()⟩])) :
    (ownership lib config).Safe task post (.call (.dropPermit semaphore) next) claim permits w past := by
  subst remains
  apply safe_quiet persistent known rfl
  intro t c effect _ _ ran
  rw [Op.exec, if_pos held] at ran
  cases ran
  exact ⟨rfl, rfl, may _, fun knows => rest _ knows⟩

/-- The task drops its parameters in reverse order, whatever `execute_run` returned. -/
theorem safe_executeRunTask (acts : ∀ s, task.ActsFor lib s request.tenantId) (unread : Unread past)
    (now : InStage lib w request .announced) :
    (ownership lib config).Safe task (Leaves lib config request [])
      (executeRunTask lib request.tenantId request.id) {.run request.id}
      [.global, .tenant request.tenantId] w past := by
  have owner : Token.run request.id ∈ ({.run request.id} : Set Token) := Set.mem_singleton _
  apply Discipline.Safe.handle (safe_executeRun acts unread now)
  rintro result claim permits w past ⟨rfl, rfl, stage, stands, concluded⟩
  apply safe_dropPermit (persistent_inStage owner) stands (by simp) (by simp) (fun _ => .global)
  intro t stands
  apply safe_dropPermit (persistent_inStage owner) stands (by simp) (by simp) (fun _ => .nothing)
  intro t stands
  exact safe_leave stands ((concluded.append rfl rfl rfl).append rfl rfl rfl)

theorem safe_executeRunBody {tenantId runId : Uuid} {claim : Set Token}
    (enters : (Task.executeRun tenantId runId).Enters lib claim permits w) :
    (ownership lib config).Safe (.executeRun tenantId runId)
      ((ownership lib config).returns (.executeRun tenantId runId))
      ((Task.executeRun tenantId runId).body lib) claim permits w [] := by
  obtain ⟨rfl, rfl, request, rfl, rfl, announced⟩ := enters
  have stable {w : World} {past : List (Performed signature)}
      (leaves : ∃ stage, InStage lib w request stage ∧ Concluded lib request stage past)
      {result : Except AppError Response} :
      (ownership lib config).Safe (.executeRun request.tenantId request.id)
        ((ownership lib config).returns (.executeRun request.tenantId request.id)) (.done result)
        {.run request.id} [] w past := by
    obtain ⟨stage, stands, concluded⟩ := leaves
    exact safe_done (persistent_inStage (Set.mem_singleton _)) stands fun _ stands =>
      ⟨rfl, rfl, request, stage, rfl, rfl, stands, concluded⟩
  refine Discipline.Safe.bind (safe_executeRunTask (fun _ => rfl) ⟨rfl, rfl, rfl⟩ announced) ?_ ?_
  · rintro _ claim permits w past ⟨rfl, rfl, leaves⟩
    exact stable leaves
  · rintro fault claim permits w past ⟨rfl, rfl, leaves⟩
    exact stable leaves

end AgentPlatform
