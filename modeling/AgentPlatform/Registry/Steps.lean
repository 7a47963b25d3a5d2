import AgentPlatform.Guarantees.Agents
import AgentPlatform.Ownership.Issued
import AgentPlatform.Ownership.Transacting
import AgentPlatform.Registry.Calls

/-! # Every step is a call or leaves the registry alone

Tools change at two statements, agents when a transaction commits. Each of these belongs to one kind
of request, so the point of the request is the only one of its operations that changes the registry.
-/

set_option autoImplicit false

namespace AgentPlatform

open Interleaving Relational Database Registry

variable {lib : Libraries} {config : Config} {s : Store} {request : Request}
  {headers : HeaderMap} {tenantId agentId : Uuid}

/-! ## Where calls take effect -/

/-- The operations at which the call of a request may take effect. -/
def Request.MayPoint : Request → Op → Prop
  | .createTool _ _, .sql (.createTool ..) => True
  | .listTools _, .sql (.listTools _) => True
  | .deleteTool _ _, .sql (.deleteTool ..) => True
  | .createAgent _ _, .sql (.insertAgent ..) | .createAgent _ _, .sql (.toolExists ..)
  | .createAgent _ _, .sql (.commit _) => True
  | .getAgent _ _, .sql (.getAgent ..) | .getAgent _ _, .sql (.getAgentToolIds ..) => True
  | _, _ => False

theorem Request.point_eq_none {past : List (Performed signature)} {op : Op} {answer : op.Answer}
    (quiet : ¬ request.MayPoint op) : request.point past ⟨op, answer⟩ = none := by
  cases op with
  | sql statement => cases request <;> cases statement <;> first | rfl | exact absurd True.intro quiet
  | _ => cases request <;> rfl

/-- The operations that may change the registry. -/
def Op.ChangesRegistry : Op → Prop
  | .sql (.createTool ..) | .sql (.deleteTool ..) | .sql (.commit _) => True
  | _ => False

theorem Database.registry_commit {c : Choice} {db db' : Database} {tx : Uuid} {answer : Except SqlxError Unit}
    (wellFormed : db.WellFormed) (ran : Executed c db (.commit tx) answer db')
    (agentless : own tx db.pendingAgents = []) : db'.store.registry = db.store.registry := by
  have unbound : own tx db.pendingAgentTools = [] := by
    refine List.eq_nil_iff_forall_not_mem.mpr fun binding member => ?_
    obtain ⟨agent, staged, _⟩ := wellFormed.bindings.pendingAgent tx binding (mem_own.mp member)
    rw [← mem_own, agentless] at staged
    cases staged
  cases ran with
  | commit found alive =>
    refine Store.registry_same rfl ?_ ?_
    · simp only [publish, rollback, discard, agentless, List.append_nil]
    · simp only [publish, rollback, discard, unbound, List.append_nil]
  | unavailable failing => rw [lose_store]
  | select healthy answered => cases answered
  | _ => exact Store.registry_same rfl rfl rfl

/-- The session of a request knows of an agent only after the request has inserted it. -/
theorem Session.next_inserted {session : Session} {what : Performed signature} {tx id : Uuid}
    (becomes : session.next what = .inserted tx (some id)) : session = .inserted tx (some id) ∨
      ∃ handle tenantId name systemPrompt maxIterations, what.op = .sql
      (.insertAgent handle tenantId name systemPrompt maxIterations) := by
  unfold Session.next at becomes
  split at becomes
  all_goals first
    | exact .inl becomes
    | exact .inr ⟨_, _, _, _, _, rfl⟩
    | cases becomes

theorem insertAgent_of_session {past : List (Performed signature)} {tx id : Uuid}
    (inserted : sessions.after Session.outside past = Session.inserted tx (some id)) :
    ∃ what ∈ past, ∃ handle tenantId name systemPrompt maxIterations,
      what.op = .sql (.insertAgent handle tenantId name systemPrompt maxIterations) := by
  induction past using List.reverseRec with
  | nil => cases inserted
  | append_singleton past what ih =>
    rw [Protocol.after, List.foldl_append] at inserted
    rcases Session.next_inserted inserted with earlier | here
    · obtain ⟨other, member, inserts⟩ := ih earlier
      exact ⟨other, List.mem_append_left _ member, inserts⟩
    · exact ⟨what, by simp, here⟩

section Steps

variable {events : List (Event (platform lib config))} {pool next : Pool (platform lib config)} {i : ℕ} {c : Choice}

theorem registry_of_step {op : Op} {answer : op.Answer} (step : Step pool (.performed i c ⟨op, answer⟩) next)
    (other : ¬ op.ChangesRegistry) : next.shared.db.store.registry = pool.shared.db.store.registry := by
  rcases store_of_step step with same | ⟨j, c', statement, answer', happened, ran⟩
  · rw [same]
  · cases happened
    generalize next.shared.db = db at ran
    cases ran with
    | createTool new | deleteTool | commitAborted found aborted | commit found alive => exact absurd True.intro other
    | unavailable failing => rw [lose_store]
    | _ => exact Store.registry_same rfl rfl rfl

/-- The agent that a thread has inserted, with its tenant. -/
theorem staged_of_inserted {agent : AgentRow} (path : Path (booted lib config s) events pool)
    (inserted : (doneBy (M := platform lib config) i events).findSome? insertedAgent? = some agent) :
    (doneBy (M := platform lib config) i events).findSome? stagedAgent? = some (agent.tenantId, agent) := by
  have parts : insertedAgent? = Option.map Prod.snd ∘ stagedAgent? := by
    funext ⟨op, answer⟩
    cases op with
    | sql statement => cases statement <;> first | rfl | (cases answer <;> rfl)
    | _ => rfl
  rw [parts, ← List.map_findSome?] at inserted
  obtain ⟨⟨tenantId, row⟩, staged, rfl⟩ := Option.map_eq_some_iff.mp inserted
  obtain ⟨⟨op, answer⟩, member, same⟩ := List.exists_of_findSome?_eq_some staged
  cases op with
  | sql statement =>
    cases statement with
    | insertAgent tx owner name systemPrompt maxIterations =>
      rcases answer with fault | row'
      · cases same
      obtain ⟨c, there⟩ := mem_doneBy.mp member
      obtain ⟨middle, next, step⟩ := path.step_of_mem there
      have ran := executed (execute_of_step step)
      obtain ⟨rfl, rfl⟩ := Prod.mk.inj (Option.some.inj same)
      generalize answered : (Except.ok row' : Except SqlxError AgentRow) = answer at ran
      generalize next.shared.db = db at ran
      cases ran with
      | insertAgent found alive fields fits new =>
        obtain rfl := Except.ok.inj answered
        subst fields
        exact staged
      | select healthy chosen => cases chosen
      | _ => cases answered
    | _ => cases same
  | _ => cases same

/-- Every step of a request to create an agent is as the creation of its agent allows it. -/
theorem creates_of_booted {body : CreateAgentRequest} {what : Performed signature} (left : Left lib s)
    (path : Path (booted lib config s) events pool) {thread : Thread (platform lib config)}
    (present : pool.threads[i]? = some thread) (creates : thread.task = .http (.createAgent headers body))
    (step : Step pool (.performed i c what) next) :
    Creates lib headers body (doneBy (M := platform lib config) i events) what pool.shared next.shared := by
  obtain ⟨before, after, middle, rfl, earlier, later, position⟩ := arrival_of_booted path present creates
  obtain ⟨arrived, arrives, rest, _, waiting⟩ := later.arrival
  rw [position] at waiting
  have around : (among lib config (fun _ => True) fun _ _ _ => True).Around i arrived
      (after ++ [.performed i c what]) :=
    around_of_booted left (earlier.snoc arrives)
      (fun _ _ _ _ _ _ _ _ _ _ => True.intro) fun _ _ _ _ _ _ _ _ _ => True.intro
  have ensures := @ensures_create lib config (fun _ => True)
      (fun _ _ _ => True) headers body arrived.shared True.intro
  have lawful := ensures.lawful around rest step waiting
  rw [doneBy_append, (earlier.follows rfl).2 i (Nat.le_of_eq position)]
  exact lawful

/-! ## Every step decides what its point says -/

section Decisions

variable {thread : Thread (platform lib config)}

/-- What a request about the registry executes is as its history requires. -/
theorem careful_of_step {what : Performed signature} (path : Path (booted lib config s) events pool)
    (present : pool.threads[i]? = some thread) (http : thread.task = .http request)
    (about : (request.call? tenantId).isSome) (step : Step pool (.performed i c what) next) :
    request.Careful lib (doneBy (M := platform lib config) i events) what.op := by
  obtain ⟨task, owned, program⟩ := thread
  obtain rfl : task = .http request := http
  cases step with
  | act mover ran =>
    cases present.symm.trans mover
    exact (path.along rfl mover (careful_registry about)).1

/-- An agent that a thread has read. -/
theorem agent_of_found {row : AgentRow} (left : Left lib s) (path : Path (booted lib config s) events pool)
    (found : (doneBy (M := platform lib config) i events).findSome? foundAgent? = some (tenantId, agentId, row)) :
    row ∈ pool.shared.db.store.agents ∧ row.tenantId = tenantId ∧ row.id = agentId := by
  obtain ⟨⟨op, answer⟩, member, same⟩ := List.exists_of_findSome?_eq_some found
  cases op with
  | sql statement =>
    cases statement with
    | getAgent owner wanted =>
      rcases answer with fault | _ | row'
      · cases same
      · cases same
      cases same
      obtain ⟨before, after, middle, c, earlier, later, selected⟩ := selected_of_mem path member fun _ _ => rfl
      obtain ⟨there, owner, id⟩ := Store.findAgent_some (Option.some.inj selected)
      exact ⟨lasting_agent.of_booted left earlier later there, owner, id⟩
    | _ => cases same
  | _ => cases same

private theorem decides_failed {statement : Statement} {fault : SqlxError}
    (step : Step pool (.performed i c ⟨.sql statement, .error fault⟩) next) :
    (Registry.implementation lib config).Decides pool.shared next.shared none := by
  change next.shared.db.store.registry = pool.shared.db.store.registry
  rw [store_of_error (executed (execute_of_step step))]

private theorem decides_createTool {body : CreateToolRequest} {name : String} {inputSchema mockHandler : Value}
    {answer : Except SqlxError ToolRow} (left : Left lib s) (path : Path (booted lib config s) events pool)
    (step : Step pool (.performed i c ⟨.sql (.createTool tenantId name inputSchema mockHandler), answer⟩) next) :
    (Registry.implementation lib config).Decides pool.shared next.shared
      ((Request.createTool headers body).point (doneBy (M := platform lib config) i events)
        ⟨.sql (.createTool tenantId name inputSchema mockHandler), answer⟩) := by
  have wellFormed := (valid_of_booted left path).wellFormed
  rcases answer with fault | row
  · by_cases taken : fault = .database .uqToolsTenantNameActive
    · subst taken
      exact effect_toolNameTaken wellFormed (execute_of_step step)
    · cases fault with
      | database constraint => cases constraint <;> first | exact absurd rfl taken | exact decides_failed step
      | _ => exact decides_failed step
  · exact effect_createTool wellFormed (execute_of_step step)

private theorem decides_insertAgent {body : CreateAgentRequest} {owned : List SemaphoreRef} {tx : Uuid}
    {name : Option String} {systemPrompt : String} {maxIterations : Int}
    {rest : Except SqlxError AgentRow → Act Response} {answer : Except SqlxError AgentRow} (left : Left lib s)
    (path : Path (booted lib config s) events pool)
    (present : pool.threads[i]? = some ⟨.http (.createAgent headers body), owned,
      .call (.sql (.insertAgent tx tenantId name systemPrompt maxIterations)) rest⟩)
    (step : Step pool (.performed i c ⟨.sql (.insertAgent tx tenantId name systemPrompt maxIterations), answer⟩)
      next) : (Registry.implementation lib config).Decides pool.shared next.shared
      ((Request.createAgent headers body).point (doneBy (M := platform lib config) i events)
        ⟨.sql (.insertAgent tx tenantId name systemPrompt maxIterations), answer⟩) := by
  rcases answer with fault | row
  · by_cases taken : fault = .database .uqAgentsTenantNameActive
    · subst taken
      refine effect_agentNameTaken (valid_of_booted left path).wellFormed ?_ (execute_of_step step)
      have allowed : (session i events).allows _ := (session_obeys path present).1
      have describes := (transacting left path).describes i
      cases standing : session i events with
      | outside => rw [standing] at allowed; cases allowed
      | opened mine =>
        rw [standing] at allowed describes
        obtain rfl : tx = mine := allowed
        exact describes.2.1
      | inserted mine agentId => rw [standing] at allowed; exact allowed.elim
    · cases fault with
      | database constraint => cases constraint <;> first | exact absurd rfl taken | exact decides_failed step
      | _ => exact decides_failed step
  · exact registry_of_step step id

private theorem decides_commit {body : CreateAgentRequest} {tx : Uuid} {answer : Except SqlxError Unit}
    (left : Left lib s) (path : Path (booted lib config s) events pool) (present : pool.threads[i]? = some thread)
    (creates : thread.task = .http (.createAgent headers body))
    (step : Step pool (.performed i c ⟨.sql (.commit tx), answer⟩) next) :
    (Registry.implementation lib config).Decides pool.shared next.shared
      ((Request.createAgent headers body).point (doneBy (M := platform lib config) i events)
        ⟨.sql (.commit tx), answer⟩) := by
  cases answer with
  | error fault => exact decides_failed step
  | ok done =>
    obtain ⟨tenantId, agent, _, asked, inserted, added⟩ :=
      (creates_of_booted left path present creates step).commits rfl
    have point : (Request.createAgent headers body).point (doneBy (M := platform lib config) i events)
        ⟨.sql (.commit tx), .ok done⟩ =
        some (.createAgent agent.tenantId (body.name.map trim)
          (trim body.systemPrompt) body.toolIds body.maxIterations, .agent agent.id (.ofRow agent body.toolIds)) := by
      simp only [Request.point, staged_of_inserted path inserted, Option.map_some]
    have effect :=
      effect_agentCreated (valid_of_booted left path).wellFormed (valid_of_booted left (path.snoc step)).wellFormed
      (unique_of_booted left (path.snoc step)) added
    rw [asked.name, asked.systemPrompt, asked.maxIterations] at effect
    rw [point]
    exact effect

private theorem decides_read {wanted : Uuid} {answer : Except SqlxError (List Uuid)} (left : Left lib s)
    (path : Path (booted lib config s) events pool) (present : pool.threads[i]? = some thread)
    (gets : thread.task = .http (.getAgent headers wanted))
    (step : Step pool (.performed i c ⟨.sql (.getAgentToolIds tenantId agentId), answer⟩) next) :
    (Registry.implementation lib config).Decides pool.shared next.shared
      ((Request.getAgent headers wanted).point (doneBy (M := platform lib config) i events)
        ⟨.sql (.getAgentToolIds tenantId agentId), answer⟩) := by
  cases answer with
  | error fault => exact decides_failed step
  | ok toolIds =>
    have careful : (Request.getAgent headers wanted).Careful lib (doneBy (M := platform lib config) i events) _ :=
      careful_of_step path present gets (rfl : ((Request.getAgent headers wanted).call? tenantId).isSome = true) step
    obtain ⟨id, row, found, rfl⟩ := careful.reads tenantId agentId rfl
    obtain ⟨member, rfl, rfl⟩ := agent_of_found left path found
    have point : (Request.getAgent headers wanted).point (doneBy (M := platform lib config) i events)
        ⟨.sql (.getAgentToolIds row.tenantId row.id), .ok toolIds⟩ =
          some (.getAgent row.tenantId row.id, .agent row.id (.ofRow row toolIds)) := by
      simp only [Request.point, found, Option.map_some]
    rw [point]
    exact effect_agentFound (valid_of_booted left path).wellFormed member (executed (execute_of_step step))

/-- A request that commits without having inserted an agent leaves the registry alone. -/
private theorem registry_of_startRun {wanted tx : Uuid} {body : StartRunRequest} {owned : List SemaphoreRef}
    {rest : Except SqlxError Unit → Act Response} {answer : Except SqlxError Unit} (left : Left lib s)
    (path : Path (booted lib config s) events pool)
    (present : pool.threads[i]? = some ⟨.http (.startRun headers wanted body), owned, .call (.sql (.commit tx)) rest⟩)
    (step : Step pool (.performed i c ⟨.sql (.commit tx), answer⟩) next) :
    next.shared.db.store.registry = pool.shared.db.store.registry := by
  have allowed : (session i events).allows (.sql (.commit tx)) := (session_obeys path present).1
  have describes := (transacting left path).describes i
  cases standing : session i events with
  | outside => rw [standing] at allowed; cases allowed
  | opened other => rw [standing] at allowed; exact allowed.elim
  | inserted mine agentId =>
    rw [standing] at allowed describes
    obtain rfl : tx = mine := allowed
    cases agentId with
    | some id =>
      obtain ⟨what, member, handle, owner, name, systemPrompt, maxIterations, inserts⟩ :=
        insertAgent_of_session standing
      have may :=
          (((path.follows rfl).1 i _ present).uses (uses_issued (.startRun headers wanted body))).1 what member
      rw [inserts] at may
      obtain ⟨_, _, same, _⟩ := may
      cases same
    | none =>
      obtain ⟨transaction, found, _, agentless⟩ := describes
      exact registry_commit (valid_of_booted left path).wellFormed (executed (execute_of_step step)) (agentless rfl)

/-- A step that is not the point of any call. -/
private theorem registry_of_quiet {owned : List SemaphoreRef} {op : Op} {rest : op.Answer → Act Response}
    {answer : op.Answer} (left : Left lib s) (path : Path (booted lib config s) events pool)
    (present : pool.threads[i]? = some ⟨.http request, owned, .call op rest⟩)
    (step : Step pool (.performed i c ⟨op, answer⟩) next) (quiet : ¬ request.MayPoint op) :
    next.shared.db.store.registry = pool.shared.db.store.registry := by
  by_cases changes : op.ChangesRegistry
  · have may := (((path.follows rfl).1 i _ present).uses (uses_issued request)).2.1
    cases op with
    | sql statement =>
      cases statement with
      | createTool owner name inputSchema mockHandler =>
        obtain ⟨headers, body, rfl, _⟩ := may
        exact absurd True.intro quiet
      | deleteTool owner toolId =>
        obtain ⟨headers, rfl⟩ := may
        exact absurd True.intro quiet
      | commit tx =>
        obtain ⟨headers, body, rfl⟩ | ⟨headers, wanted, body, rfl⟩ := may
        · exact absurd True.intro quiet
        · exact registry_of_startRun left path present step
      | _ => exact changes.elim
    | _ => exact changes.elim
  · exact registry_of_step step changes

/-- Each call takes effect at the point of its request, and nothing else touches the registry. -/
theorem registry_linearizes (left : Left lib s) :
    (Registry.implementation lib config).Linearizes (booted lib config s) := by
  rintro events i c ⟨op, answer⟩ pool next ⟨task, owned, program⟩ path step present
  have wellFormed := (valid_of_booted left path).wellFormed
  obtain ⟨rest, rfl⟩ : ∃ rest : op.Answer → Act Response, program = .call op rest := by
    cases step with
    | act mover ran =>
      cases present.symm.trans mover
      exact ⟨_, rfl⟩
  cases task with
  | executeRun tenantId runId =>
    change next.shared.db.store.registry = pool.shared.db.store.registry
    apply registry_of_step step
    rcases (((path.follows rfl).1 i _ present).uses uses_task).2.1 with inside | ⟨semaphore, rfl⟩
    · cases op with
      | sql statement => cases statement <;> first | exact inside.elim | exact id
      | _ => exact inside.elim
    · exact id
  | http request =>
    change (Registry.implementation lib config).Decides pool.shared next.shared
      (request.point (doneBy i events) ⟨op, answer⟩)
    by_cases points : request.MayPoint op
    · cases op with
      | sql statement =>
        have ran := execute_of_step step
        cases request with
        | createTool headers body =>
          cases statement with
          | createTool owner name inputSchema mockHandler =>
            exact decides_createTool left path step
          | _ => exact points.elim
        | listTools headers =>
          cases statement with
          | listTools owner =>
            cases answer with
            | error fault => exact decides_failed step
            | ok rows => exact effect_listTools wellFormed (executed ran)
          | _ => exact points.elim
        | deleteTool headers toolId =>
          cases statement with
          | deleteTool owner toolId =>
            cases answer with
            | error fault => exact decides_failed step
            | ok count => exact effect_deleteTool wellFormed (executed ran)
          | _ => exact points.elim
        | createAgent headers body =>
          cases statement with
          | insertAgent tx owner name systemPrompt maxIterations =>
            exact decides_insertAgent left path present step
          | toolExists tx owner toolId =>
            rcases answer with fault | _ | _
            · exact decides_failed step
            · change (Registry.implementation lib config).Decides _ _ (if body.toolIds.contains toolId then _ else _)
              split
              · next wanted => exact effect_toolMissing wellFormed (List.contains_iff_mem.mp wanted) (executed ran)
              · exact registry_of_step step id
            · exact registry_of_step step id
          | commit tx => exact decides_commit left path present rfl step
          | _ => exact points.elim
        | getAgent headers agentId =>
          cases statement with
          | getAgent owner wanted =>
            rcases answer with fault | _ | row
            · exact decides_failed step
            · exact effect_agentNotFound (executed ran)
            · exact registry_of_step step id
          | getAgentToolIds owner id => exact decides_read left path present rfl step
          | _ => exact points.elim
        | _ => exact points.elim
      | _ => cases request <;> exact points.elim
    · rw [@Request.point_eq_none request (doneBy (M := platform lib config) i events) op answer points]
      exact registry_of_quiet left path present step points

end Decisions

end Steps

end AgentPlatform
