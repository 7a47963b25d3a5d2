import AgentPlatform.Database.Unique
import AgentPlatform.Ownership.Creation
import AgentPlatform.Registry.Specification

/-! # The tables as a registry

What the committed rows are to the registry, and the statements at which its calls take effect.
-/

set_option autoImplicit false

namespace AgentPlatform

open Relational Database Registry

/-- A deleted tool stays in the registry and is no longer active. -/
def Registry.Tool.ofRow (row : ToolRow) : Registry.Tool :=
  ⟨row.name, row.inputSchema, row.mockHandler, row.createdAt, row.deletedAt == none⟩

/-- An agent with the tools it is bound to. -/
def Registry.Agent.ofRow (row : AgentRow) (toolIds : Multiset Uuid) : Registry.Agent :=
  ⟨row.name, row.systemPrompt, row.maxIterations, row.createdAt, toolIds⟩

namespace Store

variable {s : Store} {tenantId toolId agentId : Uuid}

/-- The order of the bindings is not part of the registry. -/
def boundTools (s : Store) (tenantId agentId : Uuid) : Multiset Uuid :=
  (s.bindings tenantId agentId).map AgentToolRow.toolId

/-- What the committed rows show of the tools and the agents of every tenant. -/
def registry (s : Store) : Registry where
  tools tenantId toolId := (s.findTool tenantId toolId).map Tool.ofRow
  agents tenantId agentId := (s.findAgent tenantId agentId).map fun row =>
    Agent.ofRow row (s.boundTools tenantId agentId)

/-- The registry only shows the tools, the agents and the bindings. -/
theorem registry_same {t : Store} (tools : t.tools = s.tools) (agents : t.agents = s.agents)
    (agentTools : t.agentTools = s.agentTools) : t.registry = s.registry := by
  simp only [registry, findTool, findAgent, boundTools, bindings, tools, agents, agentTools]

/-- A new row becomes an entry under its identifier. -/
theorem registry_addTool {row : ToolRow} (new : ∀ other ∈ s.tools, other.id ≠ row.id) :
    ({ s with tools := s.tools ++ [row] } : Store).registry =
      { s.registry with tools := s.registry.tools.put row.tenantId row.id (.ofRow row) } := by
  have tools : ({ s with tools := s.tools ++ [row] } : Store).registry.tools =
      s.registry.tools.put row.tenantId row.id (.ofRow row) := by
    funext owner key
    simp only [registry, findTool, Table.put, List.find?_append]
    split
    · next same =>
      obtain ⟨rfl, rfl⟩ := same
      have absent : s.tools.find? (fun other => other.tenantId == row.tenantId && other.id == row.id) = none := by
        refine List.find?_eq_none.mpr fun other member => ?_
        simp [new other member]
      simp [absent]
    · next different =>
      have other : [row].find? (fun tool => tool.tenantId == owner && tool.id == key) = none := by
        refine List.find?_eq_none.mpr fun tool member hit => ?_
        obtain rfl := List.mem_singleton.mp member
        simp only [Bool.and_eq_true, beq_iff_eq] at hit
        exact different ⟨hit.1.symm, hit.2.symm⟩
      simp [other]
  rw [← tools]
  rfl

/-- An agent that is committed together with its bindings becomes one entry. -/
theorem registry_withAgent {db db' : Database} {agent : AgentRow} {toolIds : List Uuid} (wellFormed : db.WellFormed)
    (wellFormed' : db'.WellFormed) (added : db'.store = db.store.WithAgent agent toolIds) :
    (∀ owner, db.store.registry.agents owner agent.id = none) ∧ db'.store.registry =
      { db.store.registry with agents :=
        db.store.registry.agents.put agent.tenantId agent.id (.ofRow agent toolIds) } := by
  have apart := wellFormed'.agents.ids.committed
  rw [added] at apart
  have new (other : AgentRow) (member : other ∈ db.store.agents) : other.id ≠ agent.id := fun same =>
    (List.pairwise_append.mp apart).2.2 other member agent (List.mem_singleton_self _) _ rfl (congrArg some same.symm)
  have absent (owner : Uuid) : db.store.findAgent owner agent.id = none := by
    refine List.find?_eq_none.mpr fun other member => ?_
    simp [new other member]
  have agents : db'.store.registry.agents = db.store.registry.agents.put agent.tenantId agent.id
      (.ofRow agent toolIds) := by
    have bound := bindings_withAgent wellFormed wellFormed' added
    funext owner key
    simp only [Table.put]
    split
    · next same =>
      obtain ⟨rfl, rfl⟩ := same
      have found : db'.store.findAgent agent.tenantId agent.id = some agent := by
        apply findAgent_of_mem wellFormed'
        rw [added]
        exact List.mem_append_right _ (List.mem_singleton_self agent)
      simp only [registry, found, boundTools, bound, map_bindingsOf, Option.map_some]
    · next different =>
      have found : db'.store.findAgent owner key = db.store.findAgent owner key := by
        have other : [agent].find? (fun row => row.tenantId == owner && row.id == key &&
            row.deletedAt == none) = none := by
          refine List.find?_eq_none.mpr fun row member hit => ?_
          obtain rfl := List.mem_singleton.mp member
          simp only [Bool.and_eq_true, beq_iff_eq] at hit
          exact different ⟨hit.1.1.symm, hit.1.2.symm⟩
        rw [added, findAgent, WithAgent, List.find?_append, other, Option.or_none, findAgent]
      have kept : db'.store.bindings owner key = db.store.bindings owner key := by
        have other : (bindingsOf agent toolIds).filter
            (fun row => row.tenantId == owner && row.agentId == key) = [] := by
          refine List.filter_eq_nil_iff.mpr fun binding member hit => ?_
          obtain ⟨toolId, _, rfl⟩ := List.mem_map.mp member
          simp only [Bool.and_eq_true, beq_iff_eq] at hit
          exact different ⟨hit.1.symm, hit.2.symm⟩
        rw [added, bindings, WithAgent, List.filter_append, other, List.append_nil, bindings]
      simp only [registry, found, boundTools, kept]
  refine ⟨fun owner => by simp [registry, absent], ?_⟩
  have tools : db'.store.registry.tools = db.store.registry.tools := by
    rw [added]
    rfl
  change db'.store.registry = ⟨db.store.registry.tools,
    db.store.registry.agents.put agent.tenantId agent.id (.ofRow agent toolIds)⟩
  rw [← agents, ← tools]

end Store

namespace Database

variable {c : Choice} {db db' : Database} {tx tenantId toolId agentId : Uuid}

theorem registry_tool_iff (wellFormed : db.WellFormed) {tool : Tool} :
    db.store.registry.tools tenantId toolId = some tool ↔
    ∃ row ∈ db.store.tools, row.tenantId = tenantId ∧ row.id = toolId ∧ tool = .ofRow row := by
  constructor
  · intro found
    obtain ⟨row, there, rfl⟩ := Option.map_eq_some_iff.mp found
    obtain ⟨member, owner, id⟩ := Store.findTool_some there
    exact ⟨row, member, owner, id, rfl⟩
  · rintro ⟨row, member, rfl, rfl, rfl⟩
    have found : (db.store.findTool row.tenantId row.id).isSome := List.find?_isSome.mpr ⟨row, member, by simp⟩
    obtain ⟨other, there⟩ := Option.isSome_iff_exists.mp found
    obtain ⟨present, _, id⟩ := Store.findTool_some there
    rw [wellFormed.catalogue.ids.eq present member rfl (congrArg some id.symm)] at there
    simp [Store.registry, there]

theorem registry_agent_iff (wellFormed : db.WellFormed) {agent : Agent} :
    db.store.registry.agents tenantId agentId = some agent ↔
      ∃ row ∈ db.store.agents, row.tenantId = tenantId ∧ row.id = agentId ∧
        agent = .ofRow row (db.store.boundTools tenantId agentId) := by
  constructor
  · intro found
    obtain ⟨row, there, rfl⟩ := Option.map_eq_some_iff.mp found
    obtain ⟨member, owner, id⟩ := Store.findAgent_some there
    exact ⟨row, member, owner, id, rfl⟩
  · rintro ⟨row, member, rfl, rfl, rfl⟩
    simp [Store.registry, Store.findAgent_of_mem wellFormed member]

theorem active_ofRow {row : ToolRow} : (Tool.ofRow row).active = true ↔ row.deletedAt = none := by
  simp [Tool.ofRow]

/-- The tools that `create_agent` accepts are the active ones. -/
theorem registry_activeTool_iff (wellFormed : db.WellFormed) :
    db.store.registry.ActiveTool tenantId toolId ↔ Database.ActiveTool db.store tenantId toolId := by
  constructor
  · rintro ⟨tool, found, active⟩
    obtain ⟨row, member, owner, id, rfl⟩ := (registry_tool_iff wellFormed).mp found
    exact ⟨row, member, owner, id, active_ofRow.mp active⟩
  · rintro ⟨row, member, owner, id, active⟩
    exact ⟨_, (registry_tool_iff wellFormed).mpr ⟨row, member, owner, id, rfl⟩, active_ofRow.mpr active⟩

/-- The unique index holds exactly the names of the active tools. -/
theorem registry_namesTool_iff (wellFormed : db.WellFormed) {name : String} :
    db.store.registry.NamesTool tenantId name ↔ ∃ row ∈ db.store.tools, row.activeName = some (tenantId, name) := by
  constructor
  · rintro ⟨toolId, tool, found, active, rfl⟩
    obtain ⟨row, member, owner, id, rfl⟩ := (registry_tool_iff wellFormed).mp found
    refine ⟨row, member, ?_⟩
    rw [ToolRow.activeName, if_pos (active_ofRow.mp active), owner]
    rfl
  · rintro ⟨row, member, named⟩
    simp only [ToolRow.activeName, Option.ite_none_right_eq_some, Option.some.injEq, Prod.mk.injEq] at named
    obtain ⟨active, owner, named⟩ := named
    exact ⟨row.id, _, (registry_tool_iff wellFormed).mpr ⟨row, member, owner, rfl, rfl⟩,
      active_ofRow.mpr active, named⟩

theorem registry_namesAgent_iff (wellFormed : db.WellFormed) {name : Option String} :
    db.store.registry.NamesAgent tenantId name ↔ TakesName db.store.agents tenantId name := by
  constructor
  · rintro ⟨agentId, agent, text, found, given, named⟩
    obtain ⟨row, member, owner, id, rfl⟩ := (registry_agent_iff wellFormed).mp found
    have active := wellFormed.agents.active row (mem_everything.mpr (.inl member))
    have named : row.name = some text := named
    refine ⟨text, given, row, member, ?_⟩
    simp [AgentRow.activeName, active, named, owner]
  · rintro ⟨text, given, row, member, named⟩
    have active := wellFormed.agents.active row (mem_everything.mpr (.inl member))
    simp only [AgentRow.activeName, active, ↓reduceIte, Option.map_eq_some_iff, Prod.mk.injEq] at named
    obtain ⟨_, named, owner, rfl⟩ := named
    exact ⟨row.id, _, _, (registry_agent_iff wellFormed).mpr ⟨row, member, owner, rfl, rfl⟩, given, named⟩

/-! ## Tools -/

/-- `create_tool` adds an active tool under a name that was free. -/
theorem effect_createTool {name : String} {inputSchema mockHandler : Value} {row : ToolRow}
    (wellFormed : db.WellFormed)
    (executes : db.execute c (.createTool tenantId name inputSchema mockHandler) = some (.ok row, db')) :
    db.store.registry.Effect (.createTool tenantId name inputSchema mockHandler)
    (.tool row.id (.ofRow row)) db'.store.registry := by
  have free := createTool_free executes
  have ran := executed executes
  generalize same : (Except.ok row : Except SqlxError ToolRow) = answer at ran
  cases ran with
  | createTool new =>
    cases same
    rw [Store.registry_addTool new]
    refine .toolCreated (fun owner => ?_) fun taken => ?_
    · rw [Option.eq_none_iff_forall_ne_some]
      intro tool found
      obtain ⟨other, member, _, id, _⟩ := (registry_tool_iff wellFormed).mp found
      exact new other member id
    · obtain ⟨other, member, named⟩ := (registry_namesTool_iff wellFormed).mp taken
      exact free other member named
  | select healthy answered => cases answered
  | _ => cases same

theorem effect_toolNameTaken {name : String} {inputSchema mockHandler : Value} (wellFormed : db.WellFormed)
    (executes : db.execute c (.createTool tenantId name inputSchema mockHandler) = some
      (.error (.database .uqToolsTenantNameActive), db')) :
    db.store.registry.Effect
    (.createTool tenantId name inputSchema mockHandler) .duplicateName db'.store.registry := by
  simp only [execute, createTool] at executes
  split_ifs at executes with failing schema handler taken clash orphan
  all_goals try (cases executes; done)
  cases executes
  obtain ⟨other, member, same⟩ := List.any_eq_true.mp clash
  refine .toolNameTaken ((registry_namesTool_iff wellFormed).mpr ⟨other, member, ?_⟩)
  simpa [ToolRow.activeName] using same

/-- The answer of `list_tools` has every active tool of the tenant once, by creation time. -/
theorem effect_listTools {rows : List ToolRow} (wellFormed : db.WellFormed)
    (ran : Executed c db (.listTools tenantId) (.ok rows) db') :
    db.store.registry.Effect (.listTools tenantId)
    (.tools (rows.map fun row => (row.id, .ofRow row))) db'.store.registry := by
  obtain ⟨rfl, unchanged⟩ := answer_of_select ran rfl
  rw [unchanged]
  have perm := List.perm_insertionSort (fun a b : ToolRow => a.createdAt < b.createdAt ∨ a.createdAt = b.createdAt ∧
    c.tie a.id ≤ c.tie b.id) (db.store.activeTools tenantId)
  refine .toolsListed ⟨fun toolId tool => ?_, ?_, ?_⟩
  · rw [List.mem_map, registry_tool_iff wellFormed]
    constructor
    · rintro ⟨row, listed, same⟩
      cases same
      have member : row ∈ db.store.activeTools tenantId := perm.mem_iff.mp listed
      simp only [Store.activeTools, List.mem_filter, Bool.and_eq_true, beq_iff_eq] at member
      exact ⟨⟨row, member.1, member.2.1, rfl, rfl⟩, active_ofRow.mpr member.2.2⟩
    · rintro ⟨⟨row, member, owner, rfl, rfl⟩, active⟩
      refine ⟨row, perm.mem_iff.mpr ?_, rfl⟩
      simp only [Store.activeTools, List.mem_filter, Bool.and_eq_true, beq_iff_eq]
      exact ⟨member, owner, active_ofRow.mp active⟩
  · rw [List.map_map]
    have ids : (db.store.tools.map ToolRow.id).Nodup := by
      refine List.pairwise_map.mpr (wellFormed.catalogue.ids.imp fun apart same => ?_)
      exact apart _ rfl (congrArg some same.symm)
    exact (perm.map _).nodup_iff.mpr (ids.sublist (List.filter_sublist.map _))
  · refine List.pairwise_map.mpr (orderByCreatedAt_pairwise.imp fun order => ?_)
    exact order.elim Nat.le_of_lt fun same => Nat.le_of_eq same.1

/-- The update of `delete_tool` takes the activity of one tool and nothing else. -/
theorem registry_deleteTool (wellFormed : db.WellFormed) {row : ToolRow} (member : row ∈ db.store.tools)
    (active : row.deletedAt = none) :
    (db.deleteTool c row.tenantId row.id).2.store.registry = { db.store.registry with
      tools := db.store.registry.tools.put row.tenantId row.id { Tool.ofRow row with active := false } } := by
  have tools : (db.deleteTool c row.tenantId row.id).2.store.registry.tools =
      db.store.registry.tools.put row.tenantId row.id { Tool.ofRow row with active := false } := by
    funext owner key
    have keys (tool : ToolRow) (selected : Prop) [Decidable selected] :
        ((if selected then { tool with deletedAt := some c.now } else tool).tenantId = tool.tenantId) ∧
          (if selected then { tool with deletedAt := some c.now } else tool).id = tool.id := by
      split <;> exact ⟨rfl, rfl⟩
    simp only [Store.registry, Store.findTool, deleteTool, Table.put, List.find?_map, Function.comp_def, keys]
    have found : (db.store.registry.tools row.tenantId row.id) = some (.ofRow row) :=
      (registry_tool_iff wellFormed).mpr ⟨row, member, rfl, rfl, rfl⟩
    obtain ⟨other, there, same⟩ := Option.map_eq_some_iff.mp found
    obtain ⟨present, _, id⟩ := Store.findTool_some there
    obtain rfl := wellFormed.catalogue.ids.eq present member rfl (congrArg some id.symm)
    split
    · next here =>
      obtain ⟨rfl, rfl⟩ := here
      rw [Store.findTool] at there
      simp [there, active, Tool.ofRow]
    · next elsewhere =>
      cases others : db.store.tools.find? (fun tool => tool.tenantId == owner && tool.id == key) with
      | none => rfl
      | some tool =>
        obtain ⟨_, owned, named⟩ := Store.findTool_some others
        rw [Option.map_some, if_neg, Option.map_some]
        intro selected
        simp only [Bool.and_eq_true, beq_iff_eq] at selected
        exact elsewhere ⟨owned.symm.trans selected.1.1, named.symm.trans selected.1.2⟩
  rw [← tools]
  rfl

/-- The number of rows that `delete_tool` reports tells whether there was an active tool. -/
theorem effect_deleteTool {count : ℕ} (wellFormed : db.WellFormed)
    (ran : Executed c db (.deleteTool tenantId toolId) (.ok count) db') :
    db.store.registry.Effect (.deleteTool tenantId toolId)
    (if count = 0 then .notFound else .deleted) db'.store.registry := by
  generalize same : (Except.ok count : Except SqlxError ℕ) = answer at ran
  cases ran with
  | deleteTool =>
    have affected := Except.ok.inj same
    split
    · next nobody =>
      have unselected := List.countP_eq_zero.mp (affected.symm.trans nobody)
      have kept : (db.deleteTool c tenantId toolId).2.store.tools = db.store.tools :=
        (List.map_congr_left fun row member => if_neg (unselected row member)).trans (List.map_id' _)
      rw [Store.registry_same kept rfl rfl]
      refine .toolNotFound fun present => ?_
      obtain ⟨row, member, owner, id, active⟩ := (registry_activeTool_iff wellFormed).mp present
      exact unselected row member (by simp [owner, id, active])
    · next somebody =>
      obtain ⟨row, member, selected⟩ := List.countP_pos_iff.mp (Nat.pos_of_ne_zero (affected ▸ somebody))
      simp only [Bool.and_eq_true, beq_iff_eq] at selected
      obtain ⟨⟨rfl, rfl⟩, active⟩ := selected
      rw [registry_deleteTool wellFormed member active]
      exact .toolDeleted ((registry_tool_iff wellFormed).mpr ⟨row, member, rfl, rfl, rfl⟩) (active_ofRow.mpr active)
  | select healthy answered => cases answered
  | _ => cases same

/-! ## Agents -/

/-- The answer of `get_agent_tool_ids`, whatever its order is. -/
theorem boundTools_of_read {toolIds : List Uuid}
    (ran : Executed c db (.getAgentToolIds tenantId agentId) (.ok toolIds) db') :
    (toolIds : Multiset Uuid) = db.store.boundTools tenantId agentId ∧ db' = db := by
  obtain ⟨rfl, unchanged⟩ := answer_of_select ran rfl
  refine ⟨?_, unchanged⟩
  rw [Store.boundTools, Multiset.coe_eq_coe]
  exact (List.perm_insertionSort _ _).map _

/-- What `get_agent` shows is the entry at the moment when the bindings are read. -/
theorem effect_agentFound {row : AgentRow} {toolIds : List Uuid} (wellFormed : db.WellFormed)
    (member : row ∈ db.store.agents) (ran : Executed c db (.getAgentToolIds row.tenantId row.id) (.ok toolIds) db') :
    db.store.registry.Effect (.getAgent row.tenantId row.id)
    (.agent row.id (.ofRow row toolIds)) db'.store.registry := by
  obtain ⟨bound, unchanged⟩ := boundTools_of_read ran
  rw [unchanged]
  exact .agentFound ((registry_agent_iff wellFormed).mpr ⟨row, member, rfl, rfl, by rw [bound]⟩)

theorem effect_agentNotFound (ran : Executed c db (.getAgent tenantId agentId) (.ok none) db') :
    db.store.registry.Effect (.getAgent tenantId agentId) .notFound db'.store.registry := by
  obtain ⟨absent, unchanged⟩ := answer_of_select ran rfl
  rw [unchanged]
  exact .agentNotFound (by simp [Store.registry, absent.symm])

theorem effect_agentNameTaken {name : Option String} {systemPrompt : String} {toolIds : List Uuid}
    {maxIterations : Int} (wellFormed : db.WellFormed) (fresh : own tx db.pendingAgents = [])
    (executes : db.execute c (.insertAgent tx tenantId name systemPrompt maxIterations) =
      some (.error (.database .uqAgentsTenantNameActive), db')) :
    db.store.registry.Effect
    (.createAgent tenantId name systemPrompt toolIds maxIterations) .duplicateName db'.store.registry := by
  have ran := executed executes
  have kept : db'.store = db.store := store_of_error ran
  rw [kept]
  generalize same : (Except.error (.database .uqAgentsTenantNameActive) : Except SqlxError AgentRow) = answer at ran
  cases ran with
  | violatedWithin inside found alive healthy =>
    cases inside
    rw [same] at executes
    cases insertedAgent healthy found alive executes with
    | duplicate fits taken =>
      rw [visible, fresh, List.append_nil] at taken
      exact .agentNameTaken ((registry_namesAgent_iff wellFormed).mpr taken)
    | _ => cases same
  | violated outside healthy => cases outside
  | select healthy answered => cases answered
  | _ => cases same

/-- A requested tool that is not active refuses the whole agent. -/
theorem effect_toolMissing {name : Option String} {systemPrompt : String} {toolIds : List Uuid} {maxIterations : Int}
    (wellFormed : db.WellFormed) (wanted : toolId ∈ toolIds)
    (ran : Executed c db (.toolExists tx tenantId toolId) (.ok false) db') :
    db.store.registry.Effect
    (.createAgent tenantId name systemPrompt toolIds maxIterations) .notFound db'.store.registry := by
  generalize same : (Except.ok false : Except SqlxError Bool) = answer at ran
  cases ran with
  | toolExists found alive =>
    refine .toolMissing wanted fun present => ?_
    obtain ⟨row, member, owner, id, active⟩ := (registry_activeTool_iff wellFormed).mp present
    have nobody := List.any_eq_false.mp (Except.ok.inj same.symm) row member
    simp [owner, id, active] at nobody
  | select healthy answered => cases answered
  | _ => cases same

/-- The commit of `create_agent` is the call: its agent appears with all its tools. -/
theorem effect_agentCreated {agent : AgentRow} {toolIds : List Uuid} (wellFormed : db.WellFormed)
    (wellFormed' : db'.WellFormed) (unique : db'.Unique) (added : db'.store = db.store.WithAgent agent toolIds) :
    db.store.registry.Effect (.createAgent agent.tenantId agent.name agent.systemPrompt toolIds agent.maxIterations)
      (.agent agent.id (.ofRow agent toolIds)) db'.store.registry := by
  obtain ⟨new, after⟩ := Store.registry_withAgent wellFormed wellFormed' added
  have stored : agent ∈ db'.store.agents := by
    rw [added]
    exact List.mem_append_right _ (List.mem_singleton_self agent)
  rw [after]
  refine .agentCreated new (fun taken => ?_)
    (wellFormed'.agents.iterations agent (mem_everything.mpr (.inl stored))) ?_ ?_
  · obtain ⟨text, given, other, member, named⟩ := (registry_namesAgent_iff wellFormed).mp taken
    have active := wellFormed'.agents.active agent (mem_everything.mpr (.inl stored))
    have apart := unique.agents.committed
    rw [added] at apart
    refine (List.pairwise_append.mp apart).2.2 other member agent (List.mem_singleton_self _) _ named ?_
    simp [AgentRow.activeName, active, given]
  · have keys : Distinct (some ∘ AgentToolRow.key) (bindingsOf agent toolIds) := by
      have all := unique.bindings.committed
      rw [added] at all
      exact all.sublist (List.sublist_append_right ..)
    refine (List.pairwise_map.mp keys).imp fun apart same => ?_
    exact apart _ rfl (congrArg (fun toolId => some (agent.tenantId, agent.id, toolId)) same.symm)
  · intro toolId member
    have bound : (⟨agent.tenantId, agent.id, toolId, agent.createdAt⟩ : AgentToolRow) ∈ db'.store.agentTools := by
      rw [added]
      exact List.mem_append_right _ (List.mem_map_of_mem member)
    obtain ⟨row, present, owner, id⟩ := wellFormed'.bindings.tool _ (mem_everything.mpr (.inl bound))
    rw [added] at present
    rw [(registry_tool_iff wellFormed).mpr ⟨row, present, owner, id, rfl⟩]
    rfl

end Database

end AgentPlatform
