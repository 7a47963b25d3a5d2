import AgentPlatform.Interleaving.Linearization
import AgentPlatform.Model.Types
import Mathlib.Data.Multiset.Defs

/-! # The registry of tools and agents

What the tool and agent endpoints are for, as a single object. A tenant has tools, which are active
until they are deleted and then keep their place, and agents, which never change. Names are unique
among the active tools and among the agents of a tenant. An agent may be bound to a tool that was
deleted a moment ago, but never to one that the tenant does not have.
-/

set_option autoImplicit false

namespace AgentPlatform

open Interleaving

namespace Registry

structure Tool where
  name : String
  inputSchema : Value
  mockHandler : Value
  createdAt : Timestamp
  active : Bool

structure Agent where
  name : Option String
  systemPrompt : String
  maxIterations : Int
  createdAt : Timestamp
  toolIds : Multiset Uuid

/-- The entries of each tenant, by their ids. -/
abbrev Table (α : Type) := Uuid → Uuid → Option α

def Table.put {α : Type} (table : Table α) (tenantId id : Uuid) (entry : α) : Table α := fun owner key =>
  if owner = tenantId ∧ key = id then some entry else table owner key

inductive Call
  | createTool (tenantId : Uuid) (name : String) (inputSchema mockHandler : Value)
  | listTools (tenantId : Uuid)
  | deleteTool (tenantId toolId : Uuid)
  | createAgent (tenantId : Uuid) (name : Option String) (systemPrompt : String)
      (toolIds : List Uuid) (maxIterations : Int)
  | getAgent (tenantId agentId : Uuid)

def Call.tenantId : Call → Uuid
  | createTool tenantId .. | listTools tenantId | deleteTool tenantId _ | createAgent tenantId ..
  | getAgent tenantId _ => tenantId

inductive Reply
  | tool (id : Uuid) (tool : Tool)
  | tools (tools : List (Uuid × Tool))
  | deleted
  | agent (id : Uuid) (agent : Agent)
  | duplicateName
  | notFound

end Registry

structure Registry where
  tools : Registry.Table Registry.Tool
  agents : Registry.Table Registry.Agent

namespace Registry

variable (r : Registry) (tenantId : Uuid)

def ActiveTool (toolId : Uuid) : Prop := ∃ tool, r.tools tenantId toolId = some tool ∧ tool.active = true

def NamesTool (name : String) : Prop := ∃ toolId tool, r.tools tenantId toolId = some tool ∧
    tool.active = true ∧ tool.name = name

/-- Some agent has this name; agents without a name never clash. -/
def NamesAgent (name : Option String) : Prop :=
  ∃ agentId agent text, r.agents tenantId agentId = some agent ∧ name = some text ∧ agent.name = some text

/-- The active tools, each one once, in the order of their creation. -/
structure Lists (tools : List (Uuid × Tool)) : Prop where
  mem : ∀ toolId tool, (toolId, tool) ∈ tools ↔ r.tools tenantId toolId = some tool ∧ tool.active = true
  distinct : (tools.map Prod.fst).Nodup
  sorted : tools.Pairwise fun earlier later => earlier.2.createdAt ≤ later.2.createdAt

/-- What a single call may answer, and what it does. -/
inductive Effect : Call → Reply → Registry → Prop
  | toolCreated {tenantId toolId : Uuid} {name : String} {inputSchema mockHandler : Value} {createdAt : Timestamp}
      (new : ∀ owner, r.tools owner toolId = none) (free : ¬ r.NamesTool tenantId name) :
      Effect (.createTool tenantId name inputSchema mockHandler)
      (.tool toolId ⟨name, inputSchema, mockHandler, createdAt, true⟩)
        { r with tools := r.tools.put tenantId toolId ⟨name, inputSchema, mockHandler, createdAt, true⟩ }
  | toolNameTaken {tenantId : Uuid} {name : String} {inputSchema mockHandler : Value}
      (taken : r.NamesTool tenantId name) :
      Effect (.createTool tenantId name inputSchema mockHandler) .duplicateName r
  | toolsListed {tenantId : Uuid} {tools : List (Uuid × Tool)} (lists : r.Lists tenantId tools) :
      Effect (.listTools tenantId) (.tools tools) r
  | toolDeleted {tenantId toolId : Uuid} {tool : Tool} (found : r.tools tenantId toolId = some tool)
      (active : tool.active = true) : Effect (.deleteTool tenantId toolId) .deleted
        { r with tools := r.tools.put tenantId toolId { tool with active := false } }
  | toolNotFound {tenantId toolId : Uuid} (absent : ¬ r.ActiveTool tenantId toolId) :
      Effect (.deleteTool tenantId toolId) .notFound r
  | agentCreated {tenantId agentId : Uuid} {name : Option String} {systemPrompt : String} {toolIds : List Uuid}
      {maxIterations : Int} {createdAt : Timestamp} (new : ∀ owner, r.agents owner agentId = none)
      (free : ¬ r.NamesAgent tenantId name) (fits : 0 < maxIterations ∧ maxIterations ≤ 50) (distinct : toolIds.Nodup)
      (known : ∀ toolId ∈ toolIds, (r.tools tenantId toolId).isSome) :
      Effect (.createAgent tenantId name systemPrompt toolIds maxIterations)
        (.agent agentId ⟨name, systemPrompt, maxIterations, createdAt, toolIds⟩)
        { r with agents := r.agents.put tenantId agentId ⟨name, systemPrompt, maxIterations, createdAt, toolIds⟩ }
  | agentNameTaken {tenantId : Uuid} {name : Option String} {systemPrompt : String} {toolIds : List Uuid}
      {maxIterations : Int} (taken : r.NamesAgent tenantId name) :
      Effect (.createAgent tenantId name systemPrompt toolIds maxIterations) .duplicateName r
  | toolMissing {tenantId toolId : Uuid} {name : Option String} {systemPrompt : String} {toolIds : List Uuid}
      {maxIterations : Int} (wanted : toolId ∈ toolIds) (absent : ¬ r.ActiveTool tenantId toolId) :
      Effect (.createAgent tenantId name systemPrompt toolIds maxIterations) .notFound r
  | agentFound {tenantId agentId : Uuid} {agent : Agent} (found : r.agents tenantId agentId = some agent) :
      Effect (.getAgent tenantId agentId) (.agent agentId agent) r
  | agentNotFound {tenantId agentId : Uuid} (absent : r.agents tenantId agentId = none) :
      Effect (.getAgent tenantId agentId) .notFound r

variable {r} {tenantId}

/-- Agents never change. -/
theorem Effect.keeps_agent {after : Registry} {call : Call} {reply : Reply} {agentId : Uuid} {agent : Agent}
    (effect : r.Effect call reply after) (found : r.agents tenantId agentId = some agent) :
    after.agents tenantId agentId = some agent := by
  cases effect with
  | agentCreated new free fits distinct known =>
    simp only [Table.put]
    split
    · next same =>
      obtain ⟨rfl, rfl⟩ := same
      cases found.symm.trans (new tenantId)
    · exact found
  | _ => exact found

/-- The registry as a specification of concurrent calls. -/
@[reducible] def specification : Specification where
  State := Registry
  Call := Call
  Reply := Reply
  effect := Effect

/-- An agent that was the reply of a call is there ever since. -/
theorem agent_of_replied {before after : Registry} {done : List (Call × Reply)} {call : Call} {agentId : Uuid}
    {agent : Agent} (runs : specification.Runs before done after) (replied : (call, .agent agentId agent) ∈ done) :
    after.agents call.tenantId agentId = some agent := by
  apply runs.since (fun r : Registry => r.agents call.tenantId agentId = some agent) _ replied
  · intro before after effect
    cases effect with
    | agentCreated new free fits distinct known => simp [Table.put, Call.tenantId]
    | agentFound found => exact found
  · exact fun _ _ _ _ effect => effect.keeps_agent

end Registry

end AgentPlatform
