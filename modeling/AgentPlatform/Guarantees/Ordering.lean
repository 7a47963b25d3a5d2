import AgentPlatform.Guarantees.Agents
import AgentPlatform.Guarantees.Deletion
import AgentPlatform.Guarantees.Starting
import AgentPlatform.Ownership.Readings

/-! # The order of the tools of an agent

One transaction inserts all bindings of an agent, so they all carry the time at which it started, and
both queries that list the tools sort by this time only. The tools of an agent come in the order of
the request if there is at most one of them; otherwise any order may come back.
-/

set_option autoImplicit false

namespace AgentPlatform

open Interleaving Relational Database Scenario

variable {lib : Libraries} {config : Config}

/-! ## Sorting by one time -/

section Sorting

variable {α : Type} {tie : Uuid → ℕ} {createdAt : α → Timestamp} {id : α → Uuid} {rows : List α}

theorem orderByCreatedAt_short (short : rows.length ≤ 1) : orderByCreatedAt tie createdAt id rows = rows := by
  rcases rows with _ | ⟨row, _ | ⟨next, rest⟩⟩
  · rfl
  · rfl
  · simp at short

/-- Of two rows with one time the second may come first. -/
theorem exists_moved {time : Timestamp} (same : ∀ row ∈ rows, createdAt row = time) (distinct : (rows.map id).Nodup)
    (long : ¬ rows.length ≤ 1) : ∃ tie, (orderByCreatedAt tie createdAt id rows).map id ≠ rows.map id := by
  rcases rows with _ | ⟨first, _ | ⟨second, rest⟩⟩
  · exact absurd (Nat.zero_le 1) long
  · exact absurd Nat.le.refl long
  · have different : id first ≠ id second := by
      intro equal
      simp [equal] at distinct
    refine ⟨fun other => if other = id first then 1 else 0, fun unmoved => ?_⟩
    have sorted := @orderByCreatedAt_pairwise α (fun other => if other = id first then 1 else 0) createdAt id
        (first :: second :: rest)
    have members {row : α}
        (member : row ∈ orderByCreatedAt (fun other => if other = id first then 1 else 0) createdAt id
        (first :: second :: rest)) : createdAt row = time :=
        same row ((List.perm_insertionSort _ _).mem_iff.mp member)
    generalize orderByCreatedAt _ createdAt id (first :: second :: rest) = found at unmoved sorted members
    obtain ⟨x, tail, rfl, front, unmoved⟩ := List.map_eq_cons_iff.mp unmoved
    obtain ⟨y, tail, rfl, next, _⟩ := List.map_eq_cons_iff.mp unmoved
    have apart := (List.pairwise_cons.mp sorted).1 y List.mem_cons_self
    rw [front, next, if_pos rfl, if_neg (Ne.symm different), members List.mem_cons_self,
      members (List.mem_cons_of_mem _ List.mem_cons_self)] at apart
    rcases apart with absurd | ⟨_, absurd⟩
    · exact absurd.false
    · cases absurd

end Sorting

/-! ## The bindings of a created agent -/

section Creation

variable {events more further : List (Event (platform lib config))}
  {pool next last final : Pool (platform lib config)} {headers : HeaderMap} {body : CreateAgentRequest}
  {agent : AgentRow} {tenantId agentId : Uuid} {i : ℕ}

/-- The agent that the request has created, with its bindings in the order of the request. -/
structure AgentCreated (lib : Libraries) (headers : HeaderMap) (body : CreateAgentRequest)
    (agent : AgentRow) (s : Store) : Prop where
  present : agent ∈ s.agents
  admitted : s.authenticates lib headers agent.tenantId
  bindings : s.bindings agent.tenantId agent.id = bindingsOf agent body.toolIds

theorem lasting_created : Lasting (AgentCreated lib headers body agent) := fun _ _ evolves created =>
  ⟨evolves.agents.subset created.present, lasting_authenticates evolves created.admitted,
    (Store.bindings_evolve evolves created.present _).trans created.bindings⟩

/-- The tool ids of a created agent in an order in which the query may return them. -/
def listed (tie : Uuid → ℕ) (agent : AgentRow) (toolIds : List Uuid) : List Uuid :=
  (orderByCreatedAt tie AgentToolRow.createdAt AgentToolRow.toolId (bindingsOf agent toolIds)).map AgentToolRow.toolId

theorem listed_short {tie : Uuid → ℕ} {toolIds : List Uuid} (short : toolIds.length ≤ 1) :
    listed tie agent toolIds = toolIds := by
  rw [listed, orderByCreatedAt_short (by simpa [bindingsOf] using short), map_bindingsOf]

/-- Two tools may come in the wrong order. -/
theorem exists_listed_ne {toolIds : List Uuid} (distinct : toolIds.Nodup) (long : ¬ toolIds.length ≤ 1) :
    ∃ tie, listed tie agent toolIds ≠ toolIds := by
  obtain ⟨tie, moved⟩ :=
    @exists_moved _ AgentToolRow.createdAt AgentToolRow.toolId (bindingsOf agent toolIds) agent.createdAt
    (by simp [bindingsOf]) (map_bindingsOf.symm ▸ distinct) (by simpa [bindingsOf] using long)
  exact ⟨tie, fun same => moved (same.trans map_bindingsOf.symm)⟩

/-- A read of the tool ids of a created agent. -/
theorem listed_of_step {toolIds : List Uuid} {c : Choice}
    (created : AgentCreated lib headers body agent pool.shared.db.store)
    (step : Step pool (.performed i c ⟨.sql (.getAgentToolIds agent.tenantId agent.id), .ok toolIds⟩) next) :
    toolIds = listed c.tie agent body.toolIds := by
  obtain ⟨rfl, _⟩ := answer_of_select (executed (execute_of_step step)) rfl
  rw [listed, created.bindings]

/-- What a successful request has created, and what it answers. -/
theorem created_of_returned {response : AgentResponse} (path : Path (started lib config) events pool)
    (later : Path pool (.arrived (.http (.createAgent headers body)) :: more) last)
    (returned : last.Returned pool.threads.length (.http (.createAgent headers body)) (.ok (.agent response))) :
    ∃ agent tie, AgentCreated lib headers body agent last.shared.db.store ∧ body.toolIds.Nodup ∧
      response.agentId = agent.id ∧ response.toolIds = listed tie agent body.toolIds := by
  obtain ⟨next, w, arrives, rest, creates, handled⟩ := handled_of_returned path later returned
  generalize done : doneBy (M := platform lib config) pool.threads.length more = past at handled
  generalize answer : Except.ok (Response.agent response) = result at handled
  cases handled with
  | unauthenticated known refused quiet => cases answer
  | declined known admitted declined quiet => cases answer
  | unread progress possible => cases answer
  | @created _ past tenantId tx agent toolIds progress =>
    cases answer
    rw [List.append_assoc] at done
    obtain ⟨before, c, after, middle, state, rfl, _, remaining, earlier, step, admitted, added⟩ :=
      exists_commit rest creates progress done
    have so_far := (path.snoc arrives).append earlier
    have created : AgentCreated lib headers body agent state.shared.db.store := by
      refine ⟨?_, ?_, ?_⟩
      · rw [added]
        exact List.mem_append_right _ (List.mem_singleton_self _)
      · rw [progress.asked.tenantId]
        exact lasting_authenticates (evolves_of_started so_far step) admitted
      · exact bindings_withAgent (valid_of_started so_far).wellFormed
          (valid_of_started (so_far.snoc step)).wellFormed added
    rw [List.append_cons] at rest
    obtain ⟨_, first, tail⟩ := Path.append_iff.mp rest
    obtain rfl := first.unique (earlier.snoc step)
    have read : ⟨.sql (.getAgentToolIds tenantId agent.id), .ok toolIds⟩ ∈ doneBy
        (M := platform lib config) pool.threads.length after := by
      rw [remaining]
      exact List.mem_singleton_self _
    obtain ⟨c', member⟩ := mem_doneBy.mp read
    obtain ⟨quiet, tail', rfl⟩ := List.append_of_mem member
    obtain ⟨here, there, until_then, reads, _⟩ := tail.cut
    have still := lasting_created.of_path (so_far.snoc step) until_then created
    refine ⟨agent, c'.tie, lasting_created.of_path (so_far.snoc step) tail created, progress.passed.distinct, rfl, ?_⟩
    rw [← progress.asked.tenantId] at reads
    exact listed_of_step still reads

end Creation

/-! ## What the others see of it -/

section Readers

variable {events more : List (Event (platform lib config))} {pool next last : Pool (platform lib config)}
  {headers sent : HeaderMap} {body : CreateAgentRequest} {agent : AgentRow} {tenantId agentId runId : Uuid} {i : ℕ}

/-- The last two statements of a request for an agent that has been answered. -/
def ReadsTools (agentId : Uuid) (past : List (Performed signature)) (result : Except AppError Response) : Prop :=
  ∀ response, result = .ok (.agent response) → ∃ before tenantId row toolIds,
    past = before ++ ⟨.sql (.getAgent tenantId agentId), .ok (some row)⟩ ::
      [⟨.sql (.getAgentToolIds tenantId row.id), .ok toolIds⟩] ∧ response.toolIds = toolIds

theorem along_getAgent : ((Request.getAgent headers agentId).handler lib).Along (fun _ _ => True)
    (ReadsTools agentId) [] := by
  have looks : (authenticate lib headers).Uses fun _ => True := uses_authenticate fun _ => True.intro
  refine Program.Along.bind _ (Program.Along.of_uses looks fun _ _ _ => True.intro)
    (fun past tenant _ => ?_) (by rintro _ _ _ _ ⟨⟩)
  refine ⟨True.intro, fun answer => ?_⟩
  rcases answer with fault | _ | row
  · rintro _ ⟨⟩
  · rintro _ ⟨⟩
  refine ⟨True.intro, fun answer => ?_⟩
  rw [List.append_assoc]
  rcases answer with fault | toolIds
  · rintro _ ⟨⟩
  · rintro _ ⟨⟩
    exact ⟨past, tenant.tenantId, row, toolIds, rfl, rfl⟩

/-- The answer to a request for a created agent lists its tools in some order. -/
theorem listed_of_returned {response : AgentResponse} (path : Path (started lib config) events pool)
    (created : AgentCreated lib headers body agent pool.shared.db.store)
    (returned : pool.Returned i (.http (.getAgent sent agent.id)) (.ok (.agent response))) :
    ∃ tie, response.toolIds = listed tie agent body.toolIds := by
  obtain ⟨owned, present⟩ := returned
  obtain ⟨past, tenantId, row, toolIds, done, rfl⟩ : _ := path.along rfl present along_getAgent response rfl
  obtain ⟨before, c, after, middle, rfl, remaining, earlier, rest, found⟩ :=
    selected_of_performed path done fun _ _ => rfl
  obtain ⟨there, owner, id⟩ := Store.findAgent_some (Option.some.inj found)
  have both : doneBy (M := platform lib config) i
      (.performed i c ⟨.sql (.getAgent tenantId agent.id), .ok (some row)⟩ :: after) =
      [⟨.sql (.getAgent tenantId agent.id), .ok (some row)⟩] ++
        ⟨.sql (.getAgentToolIds tenantId row.id), .ok response.toolIds⟩ :: [] := by
    rw [doneBy_cons_self, remaining]
    rfl
  obtain ⟨between, c', after', state, happened, _, until_then, onward, answered⟩ :=
    selected_of_performed rest both fun _ _ => rfl
  have valid : Valid lib pool.shared := valid_of_started path
  obtain rfl :=
    valid.wellFormed.agents.ids.committed.eq (lasting_agent.of_path earlier rest there) created.present rfl
    (congrArg some id.symm)
  subst owner
  refine ⟨c'.tie, ?_⟩
  rw [← Option.some.inj answered, listed, ← created.bindings,
    bindings_of_path (earlier.append until_then) onward (lasting_agent.of_path earlier until_then there)]

/-- A binding joins with its tool only. -/
theorem joinTool_ids {db : Database} {binding : AgentToolRow} (wellFormed : db.WellFormed)
    (bound : binding ∈ db.store.agentTools) : (db.store.joinTool binding).map ToolRow.id = [binding.toolId] := by
  obtain ⟨tool, present, owner, id⟩ := wellFormed.bindings.tool binding (mem_everything.mpr (.inl bound))
  have once : (db.store.joinTool binding).length = 1 := by
    rw [Store.joinTool, ← List.countP_eq_length_filter]
    apply wellFormed.catalogue.ids.countP_eq_one present
    intro other there
    simp only [Bool.and_eq_true, beq_iff_eq]
    constructor
    · rintro ⟨_, same⟩
      exact same.trans id.symm
    · intro same
      rw [wellFormed.catalogue.ids.eq there present rfl (congrArg some same.symm)]
      exact ⟨owner, id⟩
  obtain ⟨only, single⟩ := List.length_eq_one_iff.mp once
  have joined : tool ∈ db.store.joinTool binding := List.mem_filter.mpr ⟨present, by simp [owner, id]⟩
  rw [single] at joined ⊢
  obtain rfl := List.mem_singleton.mp joined
  rw [List.map_singleton, id]

/-- `list_agent_tools` lists the tools of the bindings. -/
theorem listAgentTools_ids {db : Database} {tie : Uuid → ℕ} (wellFormed : db.WellFormed) :
    ((orderByCreatedAt tie AgentToolRow.createdAt AgentToolRow.toolId (db.store.bindings tenantId agentId)).flatMap
      db.store.joinTool).map ToolRow.id =
    (orderByCreatedAt tie AgentToolRow.createdAt AgentToolRow.toolId (db.store.bindings tenantId agentId)).map
      AgentToolRow.toolId := by
  have bound (binding : AgentToolRow)
      (member : binding ∈ orderByCreatedAt tie AgentToolRow.createdAt AgentToolRow.toolId
      (db.store.bindings tenantId agentId)) : binding ∈ db.store.agentTools :=
    List.mem_of_mem_filter ((List.perm_insertionSort _ _).mem_iff.mp member)
  generalize orderByCreatedAt tie _ _ _ = bindings at bound
  induction bindings with
  | nil => rfl
  | cons binding rest ih =>
    rw [List.flatMap_cons, List.map_append, joinTool_ids wellFormed (bound binding List.mem_cons_self),
      ih fun other member => bound other (List.mem_cons_of_mem _ member)]
    rfl

/-- The tool of a decision is bound to the agent of the run, unless the messages ask for an invalid call. -/
theorem bound_of_decision (path : Path (started lib config) events pool) {run : RunRow} {payload decision : Value}
    {toolId : Uuid} (present : run ∈ pool.shared.db.store.runs) (unforced : ¬ run.ForcesInvalidCall)
    (recorded : (.llmCall, payload) ∈ (pool.shared.db.store.traceRows run.tenantId run.id).map TraceRow.event)
    (decided : payload.get "decision" = some decision) (named : decision.get "tool_id" = some (.uuid toolId)) :
    ∃ binding ∈ pool.shared.db.store.bindings run.tenantId run.agentId, binding.toolId = toolId := by
  rw [trace_of_appended path] at recorded
  obtain ⟨i, c, member⟩ := event_of_appendedTo recorded
  obtain ⟨before, after, rfl⟩ := List.append_of_mem member
  obtain ⟨tenantId, runId, ⟨rfl, rfl, _⟩, _, due⟩ := due_of_performed path (.inr (by simp))
  obtain ⟨agentId, tools, force, iteration, chosen, prepared, choice, rfl⟩ := due
  obtain ⟨rfl, _, forces_iff, rows, listed, rfl⟩ := prepared.of_path path present (doneBy_subset i before _)
  cases choice with
  | forced other forces => exact absurd (forces_iff.mp forces) unforced
  | final => cases decided; cases named
  | @ordinary tool first results =>
    cases decided
    have toolIs : tool.id = toolId := Value.uuid_injective (Option.some.inj named)
    obtain ⟨row, inRows, rfl⟩ := List.mem_map.mp (List.mem_of_mem_head? first)
    obtain ⟨_, _, binding, bound, same⟩ := listed_of_read path listed inRows
    exact ⟨binding, bound, same.trans toolIs⟩

end Readers

/-! ## The round trip -/

/-- Whoever lists the tools of the agent gets these ids in this order, and its runs call the first of them. -/
structure KeepsOrder (tenantId agentId : Uuid) (toolIds : List Uuid) (further : List (Event (platform lib config)))
    (final : Pool (platform lib config)) : Prop where
  responded : ∀ i headers response, final.Returned i (.http (.getAgent headers agentId)) (.ok (.agent response)) →
    response.toolIds = toolIds
  listed : ∀ i c rows, .performed i c ⟨.sql (.listAgentTools tenantId agentId), .ok rows⟩ ∈ further →
    rows.map ToolRow.id = toolIds
  chosen : ∀ run ∈ final.shared.db.store.runs, run.tenantId = tenantId → run.agentId = agentId →
    ¬ run.ForcesInvalidCall →
    ∀ payload, (.llmCall, payload) ∈ (final.shared.db.store.traceRows tenantId run.id).map TraceRow.event →
      ∀ decision toolId, payload.get "decision" = some decision → decision.get "tool_id" = some (.uuid toolId) →
        toolIds.head? = some toolId

section Order

variable {events more further : List (Event (platform lib config))} {pool last final : Pool (platform lib config)}
  {headers : HeaderMap} {body : CreateAgentRequest} {agent : AgentRow} {response : AgentResponse}

/-- One tool has only one order. -/
theorem keepsOrder_short (path : Path (started lib config) events last)
    (created : AgentCreated lib headers body agent last.shared.db.store) (short : body.toolIds.length ≤ 1)
    (later : Path last further final) : KeepsOrder agent.tenantId agent.id body.toolIds further final where
  responded i sent response returned := by
    obtain ⟨tie, same⟩ := listed_of_returned (path.append later) (lasting_created.of_path path later created) returned
    rw [same, listed_short short]
  listed i c rows member := by
    obtain ⟨before, after, rfl⟩ := List.append_of_mem member
    obtain ⟨middle, _, earlier, step, _⟩ := later.cut
    have valid : Valid lib middle.shared := valid_of_started (path.append earlier)
    obtain ⟨rfl, _⟩ := answer_of_select (executed (execute_of_step step)) rfl
    rw [listAgentTools_ids valid.wellFormed, (lasting_created.of_path path earlier created).bindings]
    exact listed_short short
  chosen run present owner of unforced payload recorded decision toolId decided named := by
    rw [← owner] at recorded
    obtain ⟨binding, bound, rfl⟩ := bound_of_decision (path.append later) present unforced recorded decided named
    rw [owner, of, (lasting_created.of_path path later created).bindings] at bound
    obtain ⟨toolId, member, rfl⟩ := List.mem_map.mp bound
    obtain ⟨only, single⟩ := List.length_eq_one_iff.mp (Nat.le_antisymm short (List.length_pos_of_mem member))
    rw [single] at member ⊢
    rw [List.mem_singleton.mp member]
    rfl

theorem getAgent_follows {tenantId agentId : Uuid} {row : AgentRow} {toolIds : List Uuid} :
    (Http.getAgent ⟨tenantId⟩ agentId).Follows
      [⟨.sql (.getAgent tenantId agentId), .ok (some row)⟩, ⟨.sql (.getAgentToolIds tenantId row.id), .ok toolIds⟩]
      (.done (.ok (.agent (Http.agentResponse (agentFromRow row) toolIds)))) := by
  have found : (Http.getAgent ⟨tenantId⟩ agentId).Follows [⟨.sql (.getAgent tenantId agentId), .ok (some row)⟩]
      (Db.getAgentToolIds tenantId row.id >>= fun ids => pure (.agent (Http.agentResponse (agentFromRow row) ids))) :=
    @Program.Follows.step signature _ _ _ [] (.sql (.getAgent tenantId agentId)) _ .start (.ok (some row))
  exact found.trans
    (@Program.Follows.step signature _ _ _ [] (.sql (.getAgentToolIds tenantId row.id)) _ .start (.ok toolIds))

/-- A request for the agent may be answered in any order of its tools. -/
theorem exists_response (tie : Uuid → ℕ) (path : Path (started lib config) events last)
    (created : AgentCreated lib headers body agent last.shared.db.store) :
    ∃ further final response, Path last further final ∧
      final.Returned last.threads.length (.http (.getAgent headers agent.id)) (.ok (.agent response)) ∧
      response.toolIds = listed tie agent body.toolIds := by
  have valid : Valid lib last.shared := valid_of_started path
  obtain ⟨past, follows, answers⟩ := Store.admits_iff.mpr created.admitted
  have arrives : Step last (.arrived (.http (.getAgent headers agent.id))) _ :=
    @Step.arrive (platform lib config) _ _ rfl
  obtain ⟨next, step, _, same, waiting⟩ := (Path.single arrives).arrival
  have admitted : ((Request.getAgent headers agent.id).handler lib).Follows past
      (Http.getAgent ⟨agent.tenantId⟩ agent.id) := follows.handle
  have answered : next.shared.db.store.Answers (past ++ [⟨.sql (.getAgent agent.tenantId agent.id), .ok (some agent)⟩,
      ⟨.sql (.getAgentToolIds agent.tenantId agent.id), .ok (listed tie agent body.toolIds)⟩]) := by
    rw [same]
    intro what member
    rcases List.mem_append.mp member with old | new
    · exact answers what old
    rcases List.mem_cons.mp new with rfl | new
    · exact ⟨{}, _, _, rfl, congrArg some (Store.findAgent_of_mem valid.wellFormed created.present)⟩
    · obtain rfl := List.mem_singleton.mp new
      refine ⟨{ tie := tie }, _, _, rfl, congrArg some ?_⟩
      rw [listed, created.bindings]
  obtain ⟨more, final, served, _, finished⟩ := answered.exists_path waiting (admitted.trans getAgent_follows)
  exact ⟨_, final, _, (Path.single step).append served, ⟨_, finished⟩, rfl⟩

end Order

namespace Scenario

theorem of_isAgent {result : Except AppError Response} (answered : isAgent result = true) :
    ∃ response, result = .ok (.agent response) := by
  unfold isAgent at answered
  split at answered
  · next response => exact ⟨response, rfl⟩
  · cases answered

end Scenario

/-- The tools of a created agent always come in the order of the request exactly if there is at most one of them. -/
theorem binding_order_iff {events more : List (Event (platform lib config))} {pool last : Pool (platform lib config)}
    {headers : HeaderMap} {body : CreateAgentRequest} {response : AgentResponse}
    (path : Path (started lib config) events pool)
    (later : Path pool (.arrived (.http (.createAgent headers body)) :: more) last)
    (returned : last.Returned pool.threads.length (.http (.createAgent headers body)) (.ok (.agent response))) :
    (response.toolIds = body.toolIds ∧ ∃ tenantId, last.shared.db.store.authenticates lib headers tenantId ∧
      ∀ further final, Path last further final → KeepsOrder tenantId response.agentId body.toolIds further final) ↔
      body.toolIds.length ≤ 1 := by
  obtain ⟨agent, tie, created, distinct, id, same⟩ := created_of_returned path later returned
  have whole := path.append later
  constructor
  · rintro ⟨_, tenantId, _, keeps⟩
    by_contra long
    obtain ⟨tie, moved⟩ := @exists_listed_ne agent _ distinct long
    obtain ⟨further, final, answer, onward, answered, lists⟩ := exists_response tie whole created
    rw [← id] at answered
    exact moved (lists.symm.trans ((keeps further final onward).responded _ _ _ answered))
  · intro short
    refine ⟨same.trans (listed_short short), agent.tenantId, created.admitted, fun further final onward => ?_⟩
    rw [id]
    exact keepsOrder_short whole created short onward

/-- An agent with one tool is created. -/
theorem binding_order_served : ∃ events pool more last, Path (started permissive ⟨1, 1⟩) events pool ∧
    Path pool (.arrived (.http (.createAgent headers wanted)) :: more) last ∧
    ∃ response, last.Returned pool.threads.length (.http (.createAgent headers wanted)) (.ok (.agent response)) ∧
      response.toolIds = wanted.toolIds ∧ ∃ tenantId, last.shared.db.store.authenticates permissive headers tenantId ∧
        ∀ further final, Path last further final →
          KeepsOrder tenantId response.agentId wanted.toolIds further final := by
  obtain ⟨events, pool, path, served⟩ := (started permissive ⟨1, 1⟩).exists_path
    (onboarding ++ [arrive (.createTool headers staticTool)] ++ moves 2 10 2)
    (fun _ pool => creation wanted (creationChoices false) (fun result _ _ => isAgent result) pool)
    (by decide +kernel)
  obtain ⟨more, last, result, later, _, returned, created, _⟩ :=
    pool.exists_alone (.http (.createAgent headers wanted)) rfl (creationChoices false)
    (fun result _ _ => isAgent result) served
  obtain ⟨response, rfl⟩ := of_isAgent created
  exact ⟨events, pool, more, last, path, later, response, returned,
    (binding_order_iff path later returned).mpr Nat.le.refl⟩

namespace Scenario

/-- A request with two tools. -/
def pair : CreateAgentRequest := ⟨none, "Answer.", [11, 13], 5⟩

/-- The tools of the answer. -/
def answersTools (toolIds : List Uuid) : Except AppError Response → Bool
  | .ok (.agent response) => response.toolIds == toolIds
  | _ => false

theorem of_answersTools {toolIds : List Uuid} {result : Except AppError Response}
    (answered : answersTools toolIds result = true) :
    ∃ response, result = .ok (.agent response) ∧ response.toolIds = toolIds := by
  unfold answersTools at answered
  split at answered
  · next response => exact ⟨response, rfl, eq_of_beq answered⟩
  · cases answered

/-- The tools are listed with the first one last. -/
def pairChoices : List Choice := choices 20 8 ++ [{ choice 28 with tie := fun id => if id = 11 then 1 else 0 }]

theorem pairChoices_healthy {c : Choice} (member : c ∈ pairChoices) : c.fail = false := by
  rcases List.mem_append.mp member with numbered | last
  · exact choices_healthy numbered
  · obtain rfl := List.mem_singleton.mp last
    exact choice_fail 28

end Scenario

/-- No statement fails, and the answer to the creation of an agent already lists its two tools the other way round. -/
theorem binding_order_reversed : ∃ events pool, Path (started permissive ⟨1, 1⟩) events pool ∧
    ∃ more last response, Path pool (.arrived (.http (.createAgent headers pair)) :: more) last ∧
      (∀ event ∈ more, ∃ c what, c.fail = false ∧ event = .performed pool.threads.length c what) ∧
      pair.toolIds.Nodup ∧
      last.Returned pool.threads.length (.http (.createAgent headers pair)) (.ok (.agent response)) ∧
      response.toolIds = pair.toolIds.reverse ∧ response.toolIds ≠ pair.toolIds := by
  obtain ⟨events, pool, path, served⟩ := (started permissive ⟨1, 1⟩).exists_path
    (onboarding ++ [arrive (.createTool headers staticTool)] ++ moves 2 10 2 ++
      [arrive (.createTool headers { staticTool with name := "lookup" })] ++ moves 3 12 2)
    (fun _ pool =>
      (pool.replay? (.arrive (.http (.createAgent headers pair)) :: pairChoices.map (.act pool.threads.length))).any
      fun outcome => (outcome.2.result? pool.threads.length).any (answersTools [13, 11])) (by decide +kernel)
  obtain ⟨more, last, result, later, alone, returned, checked, _⟩ :=
    pool.exists_alone (.http (.createAgent headers pair)) rfl
    pairChoices (fun result _ _ => answersTools [13, 11] result) served
  obtain ⟨response, rfl, listed⟩ := of_answersTools checked
  refine ⟨events, pool, path, more, last, response, later, fun event member => ?_,
    by decide, returned, listed, by rw [listed]; decide⟩
  obtain ⟨c, chosen, what, rfl⟩ := alone event member
  exact ⟨c, what, pairChoices_healthy chosen, rfl⟩

end AgentPlatform
