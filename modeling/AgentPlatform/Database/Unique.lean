import AgentPlatform.Database.Answers

/-! # Names and bindings

The unique indexes on active names and the primary key of the bindings, for committed and uncommitted
rows together: whatever a transaction was allowed to insert can be committed later.
-/

set_option autoImplicit false

namespace AgentPlatform

open Relational

/-- The primary key of a binding. -/
def AgentToolRow.key (row : AgentToolRow) : Uuid × Uuid × Uuid := (row.tenantId, row.agentId, row.toolId)

namespace Database

structure Unique (db : Database) : Prop where
  tools : Distinct ToolRow.activeName db.store.tools
  agents : Distinct AgentRow.activeName (everything db.store.agents db.pendingAgents)
  bindings : Distinct (some ∘ AgentToolRow.key) (everything db.store.agentTools db.pendingAgentTools)

variable {c : Choice} {db db' : Database} {tx tenantId agentId toolId : Uuid}

theorem Unique.empty : Unique {} := ⟨.nil, .nil, .nil⟩

/-! ## Transactions -/

private theorem Unique.discard (unique : db.Unique) (tx : Uuid) : (db.discard tx).Unique where
  tools := unique.tools
  agents := unique.agents.discard
  bindings := unique.bindings.discard

theorem Unique.abort (unique : db.Unique) (tx : Uuid) : (db.abort tx).Unique :=
  have left := unique.discard tx
  ⟨left.tools, left.agents, left.bindings⟩

theorem Unique.rollback (unique : db.Unique) (tx : Uuid) : (db.rollback tx).Unique :=
  have left := unique.discard tx
  ⟨left.tools, left.agents, left.bindings⟩

theorem Unique.publish (unique : db.Unique) (tx : Uuid) : (db.publish tx).Unique where
  tools := unique.tools
  agents := unique.agents.publish
  bindings := unique.bindings.publish

/-- What a process leaves when it stops. -/
theorem Unique.reconnect (unique : db.Unique) : Unique { store := db.store } where
  tools := unique.tools
  agents := by
    change Distinct AgentRow.activeName (db.store.agents ++ [])
    rw [List.append_nil]
    exact unique.agents.committed
  bindings := by
    change Distinct (some ∘ AgentToolRow.key) (db.store.agentTools ++ [])
    rw [List.append_nil]
    exact unique.bindings.committed

/-! ## Inserted rows -/

/-- The name of a tool that is inserted is not taken. -/
theorem createTool_free {name : String} {inputSchema mockHandler : Value} {row : ToolRow}
    (ran : db.execute c (.createTool tenantId name inputSchema mockHandler) = some (.ok row, db')) :
    ∀ other ∈ db.store.tools, other.activeName ≠ some (tenantId, name) := by
  simp only [execute, createTool] at ran
  split_ifs at ran with failing schema handler taken clash orphan
  all_goals try (cases ran; done)
  intro other member same
  apply clash
  refine List.any_eq_true.mpr ⟨other, member, ?_⟩
  rw [same]
  simp [ToolRow.activeName]

private theorem within_ok {α : Type} {body : Transaction → Option (Except SqlxError (α × Database))} {row : α}
    (ran : db.within tx body = some (.ok row, db')) :
    ∃ transaction, db.findTransaction tx = some transaction ∧ body transaction = some (.ok (row, db')) := by
  unfold within at ran
  split at ran
  · cases ran
  · next transaction found =>
    split at ran
    · cases ran
    · obtain ⟨result, called, same⟩ := Option.map_eq_some_iff.mp ran
      rcases result with error | ⟨row', next⟩
      · cases same
      · cases same
        exact ⟨transaction, found, called⟩

theorem insertAgent_free {name : Option String} {systemPrompt : String} {maxIterations : Int} {row : AgentRow}
    (ran : db.execute c (.insertAgent tx tenantId name systemPrompt maxIterations) = some (.ok row, db')) :
    Free AgentRow.activeName tx db.store.agents db.pendingAgents row := by
  simp only [execute] at ran
  split_ifs at ran with failing
  · cases ran
  obtain ⟨transaction, _, body⟩ := within_ok ran
  dsimp only at body
  split_ifs at body with fits taken waiting clash blocked orphan <;> cases body
  constructor
  · intro other member present same
    apply clash
    refine List.any_eq_true.mpr ⟨other, member, ?_⟩
    simp only [Bool.and_eq_true, bne_iff_ne, beq_iff_eq]
    exact ⟨present, same⟩
  · intro entry member present same
    apply blocked
    refine List.any_eq_true.mpr ⟨entry, member, ?_⟩
    simp only [Bool.and_eq_true, bne_iff_ne, beq_iff_eq]
    exact ⟨present, same⟩

theorem insertAgentTool_free (createdAt : Timestamp)
    (ran : db.execute c (.insertAgentTool tx tenantId agentId toolId) = some (.ok (), db')) :
    Free (some ∘ AgentToolRow.key) tx db.store.agentTools db.pendingAgentTools
      ⟨tenantId, agentId, toolId, createdAt⟩ := by
  simp only [execute] at ran
  split_ifs at ran with failing
  · cases ran
  obtain ⟨transaction, _, body⟩ := within_ok ran
  dsimp only at body
  split_ifs at body with taken waiting agentless toolless <;> cases body
  have reads (other : AgentToolRow) (same : AgentToolRow.key other = (tenantId, agentId, toolId)) :
      (other.tenantId == tenantId && other.agentId == agentId && other.toolId == toolId) = true := by
    simpa [AgentToolRow.key, and_assoc] using same
  constructor
  · intro other member _ same
    exact taken (List.any_eq_true.mpr ⟨other, member, reads other (Option.some.inj same)⟩)
  · intro entry member _ same
    exact waiting (List.any_eq_true.mpr ⟨entry, member, reads entry.2 (Option.some.inj same)⟩)

/-! ## Statements -/

/-- No statement breaks a unique index. -/
theorem Unique.executed {statement : Statement} {answer : Except SqlxError statement.Row} (unique : db.Unique)
    (executes : db.execute c statement = some (answer, db')) : db'.Unique := by
  have ran := Database.executed executes
  cases ran with
  | unavailable failing =>
    unfold lose
    split
    · exact unique.abort _
    · exact unique
  | violatedWithin inside found alive healthy => exact unique.abort _
  | createTool new =>
    refine ⟨unique.tools.append_singleton ?_, unique.agents, unique.bindings⟩
    exact fun other member _ => createTool_free executes other member
  | deleteTool =>
    refine ⟨?_, unique.agents, unique.bindings⟩
    refine List.pairwise_map.mpr (unique.tools.imp ?_)
    intro a b apart entry
    dsimp only
    split
    · rintro ⟨⟩
    · split
      · rintro _ ⟨⟩
      · exact apart entry
  | insertAgent found alive same fits new =>
    have free := insertAgent_free executes
    exact ⟨unique.tools, unique.agents.stage free.1 free.2, unique.bindings⟩
  | @insertAgentTool _ _ _ _ transaction found alive tool =>
    have free := insertAgentTool_free transaction.startedAt executes
    exact ⟨unique.tools, unique.agents, unique.bindings.stage free.1 free.2⟩
  | commitAborted found aborted => exact unique.rollback _
  | commit found alive => exact unique.publish _
  | _ => exact ⟨unique.tools, unique.agents, unique.bindings⟩

end Database

end AgentPlatform
