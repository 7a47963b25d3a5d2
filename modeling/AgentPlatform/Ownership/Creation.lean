import AgentPlatform.Database.Answers
import AgentPlatform.Ownership.Surrounded

/-! # Creating an agent

What `create_agent` has done when it returns: a request is refused before anything is committed, or
it has committed one agent with its bindings and reads the tool ids back. Others keep a property `Q`
of the committed rows, so that the reason of a refusal is known from a state with that property.
-/

set_option autoImplicit false

namespace AgentPlatform

open Interleaving Relational Database

/-! ## Reasons and histories -/

/-- The environment may let a statement fail, or generate an id that is in use. -/
def Unlucky (grants : Op → Choice → World → Prop) : Prop :=
  ∃ op c w, grants op c w ∧ (c.fail = true ∨ w.db.UsesId c.id)

section Reasons

variable (Q : Store → Prop) (grants : Op → Choice → World → Prop) (tenantId : Uuid) (body : CreateAgentRequest)

/-- The request has passed the checks up to these tools. -/
structure Passed (done : List Uuid) : Prop where
  prompt : (trim body.systemPrompt).isEmpty = false
  fits : 0 < body.maxIterations ∧ body.maxIterations ≤ 50
  unnamed : ∃ s, Q s ∧ ¬ TakesName s.agents tenantId (body.name.map trim)
  distinct : done.Nodup
  active : ∀ toolId ∈ done, ∃ s, Q s ∧ ActiveTool s tenantId toolId

/-- Why `create_agent` refuses a request. -/
inductive Declined : AppError → Prop
  | blank (empty : (trim body.systemPrompt).isEmpty = true) : Declined (.badRequest "system_prompt cannot be empty")
  | unlucky (possible : Unlucky grants) (error : SqlxError) : Declined (.db error)
  | range (prompt : (trim body.systemPrompt).isEmpty = false)
      (unfit : ¬ (0 < body.maxIterations ∧ body.maxIterations ≤ 50)) :
      Declined (.db (.database .agentsMaxIterationsCheck))
  | duplicate (prompt : (trim body.systemPrompt).isEmpty = false)
      (fits : 0 < body.maxIterations ∧ body.maxIterations ≤ 50)
      {s : Store} (known : Q s) (taken : TakesName s.agents tenantId (body.name.map trim)) : Declined .duplicateName
  | missing {done rest : List Uuid} {toolId : Uuid} (split : body.toolIds = done ++ toolId :: rest)
      (passed : Passed Q tenantId body done) {s : Store} (known : Q s) (absent : ¬ ActiveTool s tenantId toolId) :
      Declined .notFound
  | repeated {done rest : List Uuid} {toolId : Uuid} (split : body.toolIds = done ++ toolId :: rest)
      (passed : Passed Q tenantId body done) (again : toolId ∈ done) {s : Store} (known : Q s)
      (active : ActiveTool s tenantId toolId) : Declined (.db (.database .agentToolsPkey))

end Reasons

/-- The row that an `INSERT INTO agents` returned. -/
def insertedAgent? : Performed signature → Option AgentRow
  | ⟨.sql (.insertAgent ..), .ok row⟩ => some row
  | _ => none

/-- The read of the tool ids of an agent. -/
def readsToolIds : Performed signature → Bool
  | ⟨.sql (.getAgentToolIds ..), _⟩ => true
  | _ => false

/-- Nothing is committed and no tool ids are read. -/
structure Quiet (past : List (Performed signature)) : Prop where
  uncommitted : past.any committed = false
  unread : past.any readsToolIds = false

theorem Quiet.append {past : List (Performed signature)} {what : Performed signature} (quiet : Quiet past)
    (commits : committed what = false) (reads : readsToolIds what = false) : Quiet (past ++ [what]) :=
  ⟨by simp [quiet.uncommitted, commits], by simp [quiet.unread, reads]⟩

/-- The bindings of a new agent. -/
def bindingsOf (agent : AgentRow) (toolIds : List Uuid) : List AgentToolRow :=
  toolIds.map fun toolId => ⟨agent.tenantId, agent.id, toolId, agent.createdAt⟩

/-- The agent that a request asks for. -/
structure AgentRow.Of (agent : AgentRow) (tenantId : Uuid) (body : CreateAgentRequest) : Prop where
  tenantId : agent.tenantId = tenantId
  name : agent.name = body.name.map trim
  systemPrompt : agent.systemPrompt = trim body.systemPrompt
  maxIterations : agent.maxIterations = body.maxIterations

/-- The transaction of the request has got so far. -/
structure Progress (Q : Store → Prop) (tenantId : Uuid) (body : CreateAgentRequest) (agent : AgentRow)
    (done : List Uuid) (past : List (Performed signature)) : Prop where
  quiet : Quiet past
  inserted : past.findSome? insertedAgent? = some agent
  asked : agent.Of tenantId body
  passed : Passed Q tenantId body done
  checked : ∀ toolId ∈ done, ∃ tx, ⟨.sql (.toolExists tx tenantId toolId), .ok true⟩ ∈ past

/-- What a creation commits. -/
def Store.WithAgent (s : Store) (agent : AgentRow) (toolIds : List Uuid) : Store :=
  { s with agents := s.agents ++ [agent], agentTools := s.agentTools ++ bindingsOf agent toolIds }

/-- Only the commit changes the committed rows: it adds the agent of the request with its bindings. -/
structure Creates (lib : Libraries) (headers : HeaderMap) (body : CreateAgentRequest)
    (past : List (Performed signature)) (what : Performed signature) (s t : World) : Prop where
  quiet : committed what = false → t.db.store = s.db.store
  commits : committed what = true → ∃ tenantId agent, s.db.store.authenticates lib headers tenantId ∧
    agent.Of tenantId body ∧ past.findSome? insertedAgent? = some agent ∧
      t.db.store = s.db.store.WithAgent agent body.toolIds

/-! ## The rows of an agent -/

/-- Agents are found by their keys. -/
theorem Store.findAgent_of_mem {db : Database} {agent : AgentRow} (wellFormed : db.WellFormed)
    (present : agent ∈ db.store.agents) : db.store.findAgent agent.tenantId agent.id = some agent := by
  have active := wellFormed.agents.active agent (mem_everything.mpr (.inl present))
  have found : (db.store.findAgent agent.tenantId agent.id).isSome = true :=
    List.find?_isSome.mpr ⟨agent, present, by simp [active]⟩
  obtain ⟨row, found⟩ := Option.isSome_iff_exists.mp found
  obtain ⟨there, _, id⟩ := Store.findAgent_some found
  rw [found, wellFormed.agents.ids.committed.eq there present rfl (congrArg some id.symm)]

/-- A new agent has the bindings that are committed with it. -/
theorem bindings_withAgent {db db' : Database} {agent : AgentRow} {toolIds : List Uuid} (wellFormed : db.WellFormed)
    (wellFormed' : db'.WellFormed) (added : db'.store = db.store.WithAgent agent toolIds) :
    db'.store.bindings agent.tenantId agent.id = bindingsOf agent toolIds := by
  have apart := wellFormed'.agents.ids.committed
  rw [added] at apart
  have unbound : db.store.bindings agent.tenantId agent.id = [] := by
    apply List.filter_eq_nil_iff.mpr
    intro binding member selected
    simp only [Bool.and_eq_true, beq_iff_eq] at selected
    obtain ⟨owner, present, _, id⟩ := wellFormed.bindings.agent binding member
    exact (List.pairwise_append.mp apart).2.2 owner present agent (List.mem_singleton_self _) _ rfl
      (congrArg some (selected.2.symm.trans id.symm))
  have all : (bindingsOf agent toolIds).filter
      (fun row => row.tenantId == agent.tenantId && row.agentId == agent.id) = bindingsOf agent toolIds := by
    apply List.filter_eq_self.mpr
    intro binding member
    obtain ⟨toolId, _, rfl⟩ := List.mem_map.mp member
    simp
  rw [added, Store.bindings, Store.WithAgent, List.filter_append, all]
  exact congrArg (· ++ bindingsOf agent toolIds) unbound

theorem map_bindingsOf {agent : AgentRow} {toolIds : List Uuid} :
    (bindingsOf agent toolIds).map AgentToolRow.toolId = toolIds := by
  rw [bindingsOf, List.map_map]
  exact List.map_id _

/-! ## The transaction -/

/-- A transaction that is alive, with the rows it has inserted. -/
structure Staging (Q : Store → Prop) (lib : Libraries) (headers : HeaderMap) (tenantId tx : Uuid)
    (startedAt : Timestamp) (agents : List AgentRow) (agentTools : List AgentToolRow) (w : World) : Prop where
  known : Q w.db.store
  admitted : w.db.store.authenticates lib headers tenantId
  opened : w.db.findTransaction tx = some ⟨startedAt, false⟩
  agents : own tx w.db.pendingAgents = agents
  agentTools : own tx w.db.pendingAgentTools = agentTools
  runs : own tx w.db.pendingRuns = []

section Transaction

variable {lib : Libraries} {config : Config} {Q : Store → Prop} {grants : Op → Choice → World → Prop}
  {headers : HeaderMap} {tenantId tx : Uuid} {startedAt : Timestamp} {agents : List AgentRow}
  {agentTools : List AgentToolRow} {body : CreateAgentRequest} {w : World} {past : List (Performed signature)}

theorem statement_names {statement : Statement} (inside : statement.transaction? = some tx) :
    (Op.sql statement).Names (.transaction tx) := ⟨tx, inside, rfl⟩

theorem Staging.stable {op : Op} {s t : World} (names : op.Names (.transaction tx))
    (others : (among lib config Q grants).rely op s t)
    (staging : Staging Q lib headers tenantId tx startedAt agents agentTools s) :
    Staging Q lib headers tenantId tx startedAt agents agentTools t := by
  obtain ⟨evolves, keeps, same⟩ := others
  have same := same tx names
  exact ⟨keeps staging.known, lasting_authenticates evolves staging.admitted, same.entry.trans staging.opened,
    same.agents.trans staging.agents, same.agentTools.trans staging.agentTools, same.runs.trans staging.runs⟩

theorem Creates.of_same {what : Performed signature} {s t : World} (commits : committed what = false)
    (same : t.db.store = s.db.store) : Creates lib headers body past what s t :=
  ⟨fun _ => same, fun other => by simp [commits] at other⟩

/-- These tools are bound, or the request is declined. -/
def Bound (Q : Store → Prop) (grants : Op → Choice → World → Prop) (lib : Libraries) (headers : HeaderMap)
    (tenantId tx : Uuid) (body : CreateAgentRequest) (agent : AgentRow) (done : List Uuid) : Except AppError Unit →
      World → List (Performed signature) → Prop
  | .ok (), w, past => Staging Q lib headers tenantId tx agent.createdAt [agent] (bindingsOf agent done) w ∧
      Progress Q tenantId body agent done past
  | .error fault, _, past => Declined Q grants tenantId body fault ∧ Quiet past

section Loop

variable {agent : AgentRow} {done rest : List Uuid} {toolId : Uuid}

theorem Progress.append {what : Performed signature} (progress : Progress Q tenantId body agent done past)
    (commits : committed what = false) (reads : readsToolIds what = false) :
    Progress Q tenantId body agent done (past ++ [what]) where
  quiet := progress.quiet.append commits reads
  inserted := by rw [List.findSome?_append, progress.inserted]; rfl
  asked := progress.asked
  passed := progress.passed
  checked toolId member := by
    obtain ⟨tx, there⟩ := progress.checked toolId member
    exact ⟨tx, List.mem_append_left _ there⟩

/-- The agent of a transaction is not bound in the committed rows. -/
theorem Staging.unbound (staging : Staging Q lib headers tenantId tx startedAt [agent] agentTools w)
    (wellFormed : w.db.WellFormed) {binding : AgentToolRow} (committed : binding ∈ w.db.store.agentTools) :
    binding.agentId ≠ agent.id := by
  intro clash
  obtain ⟨other, present, _, same⟩ := wellFormed.bindings.agent binding committed
  have staged : (tx, agent) ∈ w.db.pendingAgents := mem_own.mp (staging.agents ▸ List.mem_singleton_self agent)
  have apart := (List.pairwise_append.mp wellFormed.agents.ids).2.2 other present agent
      (List.mem_map_of_mem staged) agent.id
  exact apart (congrArg some (same.trans clash)) rfl

/-- One more tool is bound. -/
theorem ensures_bindTool (split : body.toolIds = done ++ toolId :: rest)
    (staging : Staging Q lib headers tenantId tx agent.createdAt [agent] (bindingsOf agent done) w)
    (progress : Progress Q tenantId body agent done past) :
    (among lib config Q grants).Ensures (Creates lib headers body)
      (Bound Q grants lib headers tenantId tx body agent (done ++ [toolId]))
      (Db.bindTool tx tenantId agent.id toolId) w past := by
  apply ensures_sql staging (fun s t => Staging.stable (statement_names rfl))
  intro t c answer db staging _ granted ran
  by_cases failing : c.fail = true
  · rw [execute_failing failing] at ran
    cases ran
    exact ⟨.of_same rfl lose_store, .unlucky ⟨_, _, _, granted, .inl failing⟩ _, progress.quiet.append rfl rfl⟩
  obtain ⟨rfl, present, rfl, checks⟩ := toolExists_answer (Bool.eq_false_iff.mpr failing) staging.opened rfl ran
  refine ⟨.of_same rfl rfl, ?_⟩
  cases present with
  | false => exact ⟨.missing split progress.passed staging.known (by simpa using checks),
      progress.quiet.append rfl rfl⟩
  | true =>
    have active := checks.mp rfl
    have known := staging.known
    obtain ⟨tool, present, owner, id, _⟩ := checks.mp rfl
    refine ensures_sql (P := fun w =>
        Staging Q lib headers tenantId tx agent.createdAt [agent] (bindingsOf agent done) w ∧
        ∃ tool ∈ w.db.store.tools, tool.tenantId = tenantId ∧ tool.id = toolId)
          ⟨staging, tool, present, owner, id⟩ ?_ ?_
    · rintro s t others ⟨staging, tool, present, owner, id⟩
      obtain ⟨later, there, same⟩ := others.1.tools tool present
      exact ⟨staging.stable (statement_names rfl) others, later, there, same.tenantId.trans owner, same.id.trans id⟩
    rintro u c answer db ⟨staging, tool⟩ sound granted ran
    by_cases failing : c.fail = true
    · rw [execute_failing failing] at ran
      cases ran
      exact ⟨.of_same rfl lose_store, .unlucky ⟨_, _, _, granted, .inl failing⟩ _,
        (progress.append rfl rfl).quiet.append rfl rfl⟩
    cases insertedAgentTool (Bool.eq_false_iff.mpr failing) staging.opened rfl ran with
    | @repeated other seen same bound =>
      refine ⟨.of_same rfl rfl, .repeated split progress.passed ?_ known active,
        (progress.append rfl rfl).quiet.append rfl rfl⟩
      rcases mem_visible.mp seen with committed | staged
      · exact absurd same (staging.unbound sound.wellFormed committed)
      · have mine : other ∈ bindingsOf agent done := staging.agentTools ▸ mem_own.mpr staged
        obtain ⟨toolId', earlier, rfl⟩ := List.mem_map.mp mine
        exact bound ▸ earlier
    | agentless absent =>
      refine absurd ⟨agent, ?_, progress.asked.tenantId, rfl⟩ absent
      exact mem_visible.mpr (.inr (mem_own.mp (staging.agents ▸ List.mem_singleton_self agent)))
    | toolless absent => exact absurd tool absent
    | inserted new =>
      have fresh : toolId ∉ done := by
        intro earlier
        have mine : ⟨agent.tenantId, agent.id, toolId, agent.createdAt⟩ ∈ own tx u.db.pendingAgentTools :=
          staging.agentTools ▸ List.mem_map_of_mem earlier
        exact new _ (mem_visible.mpr (.inr (mem_own.mp mine))) progress.asked.tenantId rfl rfl
      refine ⟨.of_same rfl rfl,
        ⟨staging.known, staging.admitted, staging.opened, staging.agents, ?_, staging.runs⟩, ?_⟩
      · rw [own_append, own_singleton_self, staging.agentTools, bindingsOf, bindingsOf,
          List.map_append, ← progress.asked.tenantId]
        rfl
      · have later : Progress Q tenantId body agent done
            (past ++ [⟨.sql (.toolExists tx tenantId toolId), .ok true⟩] ++
            [⟨.sql (.insertAgentTool tx tenantId agent.id toolId), .ok ()⟩]) :=
            (progress.append rfl rfl).append rfl rfl
        refine { later with passed := { progress.passed with distinct := ?_, active := ?_ }, checked := ?_ }
        · refine List.nodup_append.mpr ⟨progress.passed.distinct, List.nodup_singleton _, fun a old b last same => ?_⟩
          rw [List.mem_singleton] at last
          exact fresh (last ▸ same ▸ old)
        · intro other member
          rcases List.mem_append.mp member with old | new
          · exact progress.passed.active other old
          · obtain rfl := List.mem_singleton.mp new
            exact ⟨_, known, active⟩
        · intro other member
          rcases List.mem_append.mp member with old | new
          · exact later.checked other old
          · obtain rfl := List.mem_singleton.mp new
            exact ⟨tx, by simp⟩

/-- The loop over the requested tools. -/
theorem ensures_bindTools (split : body.toolIds = done ++ rest)
    (staging : Staging Q lib headers tenantId tx agent.createdAt [agent] (bindingsOf agent done) w)
    (progress : Progress Q tenantId body agent done past) :
    (among lib config Q grants).Ensures (Creates lib headers body)
      (Bound Q grants lib headers tenantId tx body agent body.toolIds)
      (Db.bindTools tx tenantId agent.id rest) w past := by
  induction rest generalizing done w past with
  | nil =>
    rw [List.append_nil] at split
    rw [split]
    exact ⟨staging, progress⟩
  | cons toolId rest ih =>
    refine Surroundings.Ensures.bind (ensures_bindTool split staging progress) ?_ fun _ _ _ declined => declined
    rintro _ w past ⟨staging, progress⟩
    exact ih (by simp [split]) staging progress

end Loop

/-! ## `create_agent` -/

theorem Staging.begin {id : Uuid} (startedAt : Timestamp) (known : Q w.db.store)
    (admitted : w.db.store.authenticates lib headers tenantId) (pending : w.db.Open)
    (new : w.db.findTransaction id = none) : Staging Q lib headers tenantId id startedAt [] []
      { w with db := { w.db with transactions := w.db.transactions ++ [(id, ⟨startedAt, false⟩)] } } := by
  have nothing {α : Type} {rows : List (Uuid × α)}
      (opened : ∀ tx row, (tx, row) ∈ rows → (w.db.findTransaction tx).isSome) : own id rows = [] := by
    apply List.eq_nil_iff_forall_not_mem.mpr
    intro row member
    have present := opened id row (mem_own.mp member)
    rw [new] at present
    cases present
  refine ⟨known, admitted, ?_, nothing pending.agents, nothing pending.agentTools, nothing pending.runs⟩
  rw [findTransaction, List.lookup_append, ← findTransaction, new]
  simp

/-- The agent is committed with all its bindings, or the request is declined. -/
def Committed (Q : Store → Prop) (grants : Op → Choice → World → Prop) (tenantId : Uuid) (body : CreateAgentRequest) :
    Except AppError AgentRecord → World → List (Performed signature) → Prop
  | .ok record, _, past => ∃ agent before tx, record = agentFromRow agent ∧
      Progress Q tenantId body agent body.toolIds before ∧ past = before ++ [⟨.sql (.commit tx), .ok ()⟩]
  | .error fault, _, past => Declined Q grants tenantId body fault ∧ Quiet past

theorem Staging.commits {agent : AgentRow} {toolIds : List Uuid}
    (staging : Staging Q lib headers tenantId tx startedAt [agent] (bindingsOf agent toolIds) w) :
    (w.db.publish tx).store = w.db.store.WithAgent agent toolIds := by
  simp only [publish, Database.rollback, Database.discard, staging.agents, staging.agentTools, staging.runs,
    List.append_nil, Store.WithAgent]

/-- The tools are bound and the transaction is committed. -/
theorem ensures_filled (agent : AgentRow)
    (staging : Staging Q lib headers tenantId tx agent.createdAt [agent] (bindingsOf agent []) w)
    (progress : Progress Q tenantId body agent [] past) :
    (among lib config Q grants).Ensures (Creates lib headers body) (Committed Q grants tenantId body)
      (do
        Db.bindTools tx tenantId agent.id body.toolIds
        query (.commit tx)
        return agentFromRow agent) w past := by
  refine Surroundings.Ensures.bind (ensures_bindTools rfl staging progress) ?_ fun _ _ _ declined => declined
  rintro _ w past ⟨staging, progress⟩
  apply ensures_sql staging (fun s t => Staging.stable (statement_names rfl))
  intro t c answer db staging _ granted ran
  by_cases failing : c.fail = true
  · rw [execute_failing failing] at ran
    cases ran
    exact ⟨.of_same rfl lose_store, .unlucky ⟨_, _, _, granted, .inl failing⟩ _, progress.quiet.append rfl rfl⟩
  obtain ⟨rfl, rfl⟩ := commit_answer (Bool.eq_false_iff.mpr failing) staging.opened rfl ran
  exact ⟨⟨nofun, fun _ => ⟨tenantId, agent, staging.admitted, progress.asked, progress.inserted, staging.commits⟩⟩,
    agent, past, tx, rfl, progress, rfl⟩

/-- Dropping the transaction changes nothing that is committed. -/
theorem ensures_rollback (tx : Uuid) {fault : AppError}
    (failed : Committed Q grants tenantId body (.error fault) w past) : (among lib config Q grants).Ensures
    (Creates lib headers body) (fun _ => Committed Q grants tenantId body (.error fault))
      (act (.rollback tx)) w past := by
  apply Surroundings.Ensures.call True.intro (fun _ _ _ _ => True.intro)
  intro t c owned effect _ _ _ ran
  cases ran
  exact ⟨.of_same rfl rfl, failed.1, failed.2.append rfl rfl⟩

theorem ensures_createAgent (prompt : (trim body.systemPrompt).isEmpty = false) (known : Q w.db.store)
    (admitted : w.db.store.authenticates lib headers tenantId) (quiet : Quiet past)
    (unused : past.findSome? insertedAgent? = none) :
    (among lib config Q grants).Ensures (Creates lib headers body) (Committed Q grants tenantId body)
      (Db.createAgent tenantId (body.name.map trim)
        (trim body.systemPrompt) body.toolIds body.maxIterations) w past := by
  unfold Db.createAgent
  refine ensures_query (P := fun w => Q w.db.store ∧ w.db.store.authenticates lib headers tenantId) ⟨known, admitted⟩
    (fun s t others now => ⟨others.2.1 now.1, lasting_authenticates others.1 now.2⟩) ?_ ?_
  · rintro t c tx db ⟨known, admitted⟩ sound granted ran
    obtain ⟨new, rfl, rfl⟩ := begun ran
    have staging := Staging.begin c.now known admitted sound.wellFormed.pending new
    refine ⟨.of_same rfl rfl, Surroundings.Ensures.onError ?_
      (fun record w past (done : Committed Q grants tenantId body (.ok record) w past) => done)
      fun _ _ _ => ensures_rollback c.id⟩
    have quiet : Quiet (past ++ [⟨.sql .begin, .ok c.id⟩]) := quiet.append rfl rfl
    apply ensures_sql staging (fun s t => Staging.stable (statement_names rfl))
    intro u c' answer db staging sound granted ran
    by_cases failing : c'.fail = true
    · rw [execute_failing failing] at ran
      cases ran
      exact ⟨.of_same rfl lose_store, .unlucky ⟨_, _, _, granted, .inl failing⟩ _, quiet.append rfl rfl⟩
    have seen : visible c.id u.db.store.agents u.db.pendingAgents = u.db.store.agents := by
      rw [visible, staging.agents, List.append_nil]
    cases insertedAgent (Bool.eq_false_iff.mpr failing) staging.opened rfl ran with
    | range unfit => exact ⟨.of_same rfl rfl, .range prompt unfit, quiet.append rfl rfl⟩
    | collides taken =>
      obtain ⟨other, present, same⟩ := taken
      have inUse : u.db.UsesId c'.id :=
        .inr (.inr (.inr (.inl ⟨other, List.mem_append_left _ (seen ▸ present), same⟩)))
      exact ⟨.of_same rfl rfl, .unlucky ⟨_, _, _, granted, .inr inUse⟩ _, quiet.append rfl rfl⟩
    | duplicate fits taken =>
        exact ⟨.of_same rfl rfl, .duplicate prompt fits staging.known (seen ▸ taken), quiet.append rfl rfl⟩
    | orphan absent => exact absurd (Store.authenticates_tenant sound.wellFormed.accounts staging.admitted) absent
    | inserted fits unnamed =>
      refine ⟨.of_same rfl rfl, ensures_filled ⟨c'.id, tenantId, body.name.map trim, trim body.systemPrompt,
        body.maxIterations, c.now, none⟩ ?_ ?_⟩
      · refine ⟨staging.known, staging.admitted, staging.opened, ?_, staging.agentTools, staging.runs⟩
        rw [own_append, staging.agents, own_singleton_self, List.nil_append]
      · refine ⟨quiet.append rfl rfl, ?_, ⟨rfl, rfl, rfl, rfl⟩,
          ⟨prompt, fits, ⟨_, staging.known, seen ▸ unnamed⟩, List.nodup_nil, ?_⟩, ?_⟩
        · rw [List.findSome?_append, List.findSome?_append, unused]
          rfl
        · rintro toolId ⟨⟩
        · rintro toolId ⟨⟩
  · rintro t c error db _ _ granted ran
    obtain ⟨failing, rfl, rfl⟩ := not_begun ran
    exact ⟨.of_same rfl rfl, .unlucky ⟨_, _, _, granted, .inl failing⟩ _, quiet.append rfl rfl⟩

/-- What a request to create an agent has established when it returns. -/
inductive Handled (E : Surroundings (platform lib config)) (Q : Store → Prop) (headers : HeaderMap)
    (body : CreateAgentRequest) : Except AppError Response → World → List (Performed signature) → Prop
  | unauthenticated {s w : World} {past : List (Performed signature)} {fault : AppError} (known : Q s.db.store)
      (refused : Unauthenticated E headers s fault) (quiet : Quiet past) :
      Handled E Q headers body (.error fault) w past
  | declined {s : Store} {w : World} {past : List (Performed signature)} {tenantId : Uuid} {fault : AppError}
      (known : Q s)
      (admitted : s.authenticates lib headers tenantId) (declined : Declined Q E.grants tenantId body fault)
      (quiet : Quiet past) : Handled E Q headers body (.error fault) w past
  | unread {w : World} {past : List (Performed signature)} {tenantId tx : Uuid} {agent : AgentRow} {error : SqlxError}
      (progress : Progress Q tenantId body agent body.toolIds past) (possible : Unlucky E.grants) :
      Handled E Q headers body (.error (.db error)) w (past ++ [⟨.sql (.commit tx), .ok ()⟩] ++
        [⟨.sql (.getAgentToolIds tenantId agent.id), .error error⟩])
  | created {w : World} {past : List (Performed signature)} {tenantId tx : Uuid} {agent : AgentRow}
      {toolIds : List Uuid} (progress : Progress Q tenantId body agent body.toolIds past) :
      Handled E Q headers body (.ok (.agent (Http.agentResponse (agentFromRow agent) toolIds))) w
        (past ++ [⟨.sql (.commit tx), .ok ()⟩] ++ [⟨.sql (.getAgentToolIds tenantId agent.id), .ok toolIds⟩])

/-- The rule for the handler. -/
theorem ensures_create (known : Q w.db.store) :
    (among lib config Q grants).Ensures (Creates lib headers body)
      (Handled (among lib config Q grants) Q headers body) ((Request.createAgent headers body).handler lib) w [] := by
  refine ensures_authenticate (P := fun w => Q w.db.store) known (fun _ s t others now => others.2.1 now)
    (fun _ _ _ => .of_same rfl rfl) ?_ ?_
  · rintro t later ⟨tenantId⟩ known admitted looked
    have quiet : Quiet later ∧ later.findSome? insertedAgent? = none := by
      rcases looked with rfl | ⟨keyPrefix, answer, rfl⟩ <;> exact ⟨⟨rfl, rfl⟩, rfl⟩
    change (among lib config Q grants).Ensures _ _ (Http.createAgent ⟨tenantId⟩ body) _ _
    unfold Http.createAgent
    split
    · next blank => exact .declined known admitted (.blank blank) quiet.1
    · next prompt =>
      refine Surroundings.Ensures.bind
        (ensures_createAgent (Bool.eq_false_iff.mpr prompt) known admitted quiet.1 quiet.2) ?_ ?_
      · rintro record u past ⟨agent, before, tx, rfl, progress, rfl⟩
        refine ensures_select True.intro (fun _ _ _ _ => True.intro) (fun _ _ => rfl)
          (fun v c row _ _ _ _ answered => ⟨.of_same rfl rfl, ?_⟩)
          fun v c _ _ granted failing => ⟨.of_same rfl rfl, ?_⟩
        · exact .created progress
        · exact .unread progress ⟨_, _, _, granted, .inl failing⟩
      · rintro fault u past ⟨declined, quiet⟩
        exact .declined known admitted declined quiet
  · intro t later fault known refused looked
    refine .unauthenticated known refused ?_
    rcases looked with rfl | ⟨keyPrefix, answer, rfl⟩ <;> exact ⟨rfl, rfl⟩

end Transaction

end AgentPlatform
