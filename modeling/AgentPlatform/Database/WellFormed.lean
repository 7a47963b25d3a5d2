import AgentPlatform.Database.Executed

/-! # Well-formed databases

The keys, partial indexes and foreign keys of the migration as an invariant, together with what
the server adds to them: rows are inserted in their initial state, an agent is bound to tools only
in the transaction that creates it, and the messages of a run decode. Every statement preserves
the invariant as long as the two multi-statement transactions use it as the server does.
-/

set_option autoImplicit false

namespace AgentPlatform

open Relational

/-- What a run was asked to do, which no statement changes. -/
structure RunRow.SameRequest (before after : RunRow) : Prop where
  id : after.id = before.id
  tenantId : after.tenantId = before.tenantId
  agentId : after.agentId = before.agentId
  inputMessages : after.inputMessages = before.inputMessages
  idempotencyKey : after.idempotencyKey = before.idempotencyKey
  createdAt : after.createdAt = before.createdAt

theorem RunRow.SameRequest.refl (row : RunRow) : row.SameRequest row := ⟨rfl, rfl, rfl, rfl, rfl, rfl⟩

theorem RunRow.SameRequest.trans {a b c : RunRow} (left : a.SameRequest b) (right : b.SameRequest c) :
    a.SameRequest c where
  id := right.id.trans left.id
  tenantId := right.tenantId.trans left.tenantId
  agentId := right.agentId.trans left.agentId
  inputMessages := right.inputMessages.trans left.inputMessages
  idempotencyKey := right.idempotencyKey.trans left.idempotencyKey
  createdAt := right.createdAt.trans left.createdAt

theorem RunRow.SameRequest.scope {before after : RunRow} (same : before.SameRequest after) :
    after.scope = before.scope := by
  simp only [RunRow.scope, same.idempotencyKey, same.tenantId, same.agentId]

/-- The state in which runs are inserted. -/
structure RunRow.Fresh (row : RunRow) : Prop where
  status : row.status = .pending
  finalAnswer : row.finalAnswer = none
  errorReason : row.errorReason = none
  startedAt : row.startedAt = none
  finishedAt : row.finishedAt = none

namespace Database

structure Accounts (tenants : List TenantRow) (apiKeys : List ApiKeyRow) : Prop where
  prefixes : Distinct (some ∘ ApiKeyRow.keyPrefix) apiKeys
  tenant : ∀ key ∈ apiKeys, ∃ tenant ∈ tenants, tenant.id = key.tenantId
  active : ∀ key ∈ apiKeys, key.revokedAt = none

structure Catalogue (tools : List ToolRow) : Prop where
  ids : Distinct (some ∘ ToolRow.id) tools
  generated : ∀ tool ∈ tools, tool.id ≠ Uuid.nil

structure Agents (agents : List AgentRow) (pendingAgents : List (Uuid × AgentRow)) : Prop where
  ids : Distinct (some ∘ AgentRow.id) (everything agents pendingAgents)
  iterations : ∀ agent ∈ everything agents pendingAgents, 0 < agent.maxIterations ∧ agent.maxIterations ≤ 50
  active : ∀ agent ∈ everything agents pendingAgents, agent.deletedAt = none

structure Bindings (tools : List ToolRow) (agents : List AgentRow)
    (pendingAgents : List (Uuid × AgentRow)) (agentTools : List AgentToolRow)
    (pendingAgentTools : List (Uuid × AgentToolRow)) : Prop where
  tool : ∀ binding ∈ everything agentTools pendingAgentTools,
    ∃ tool ∈ tools, tool.tenantId = binding.tenantId ∧ tool.id = binding.toolId
  agent : ∀ binding ∈ agentTools,
    ∃ agent ∈ agents, agent.tenantId = binding.tenantId ∧ agent.id = binding.agentId
  pendingAgent : ∀ tx binding, (tx, binding) ∈ pendingAgentTools →
    ∃ agent, (tx, agent) ∈ pendingAgents ∧ agent.tenantId = binding.tenantId ∧ agent.id = binding.agentId

structure Runs (agents : List AgentRow) (pendingAgents : List (Uuid × AgentRow)) (runs : List RunRow)
    (pendingRuns : List (Uuid × RunRow)) : Prop where
  ids : Distinct (some ∘ RunRow.id) (everything runs pendingRuns)
  scopes : Distinct RunRow.scope (everything runs pendingRuns)
  messages : ∀ run ∈ everything runs pendingRuns, ∃ messages,
    run.inputMessages = ChatMessage.listToValue messages
  agent : ∀ run ∈ runs, ∃ agent ∈ agents, agent.tenantId = run.tenantId ∧ agent.id = run.agentId
  pendingAgent : ∀ tx run, (tx, run) ∈ pendingRuns →
    ∃ agent ∈ visible tx agents pendingAgents, agent.tenantId = run.tenantId ∧ agent.id = run.agentId
  fresh : ∀ tx run, (tx, run) ∈ pendingRuns → run.Fresh

/-- Uncommitted rows belong to open transactions. -/
structure Open (db : Database) : Prop where
  agents : ∀ tx row, (tx, row) ∈ db.pendingAgents → (db.findTransaction tx).isSome
  agentTools : ∀ tx row, (tx, row) ∈ db.pendingAgentTools → (db.findTransaction tx).isSome
  runs : ∀ tx row, (tx, row) ∈ db.pendingRuns → (db.findTransaction tx).isSome

structure WellFormed (db : Database) : Prop where
  accounts : Accounts db.store.tenants db.store.apiKeys
  catalogue : Catalogue db.store.tools
  agents : Agents db.store.agents db.pendingAgents
  bindings : Bindings db.store.tools db.store.agents db.pendingAgents db.store.agentTools
    db.pendingAgentTools
  runs : Runs db.store.agents db.pendingAgents db.store.runs db.pendingRuns
  traces : ∀ trace ∈ db.store.runTraces,
    ∃ run ∈ db.store.runs, run.tenantId = trace.tenantId ∧ run.id = trace.runId
  pending : db.Open

/-- Some row of the database has this id. -/
def UsesId (db : Database) (id : Uuid) : Prop :=
  (∃ row ∈ db.store.tenants, row.id = id) ∨ (∃ row ∈ db.store.apiKeys, row.id = id) ∨
    (∃ row ∈ db.store.tools, row.id = id) ∨ (∃ row ∈ everything db.store.agents db.pendingAgents, row.id = id) ∨
    (∃ row ∈ everything db.store.runs db.pendingRuns, row.id = id) ∨ ∃ row ∈ db.store.runTraces, row.id = id

/-! ## Transactions -/

variable {db : Database} {tx other : Uuid}

@[simp] theorem findTransaction_rollback_self : (db.rollback tx).findTransaction tx = none :=
  lookup_without_self

theorem findTransaction_rollback (different : other ≠ tx) :
    (db.rollback tx).findTransaction other = db.findTransaction other :=
  lookup_without different

theorem findTransaction_abort : (db.abort tx).findTransaction other =
    if other = tx then (db.findTransaction other).map fun transaction => { transaction with aborted := true }
    else db.findTransaction other :=
  lookup_change fun transaction : Transaction => { transaction with aborted := true }

theorem isSome_findTransaction_abort :
    ((db.abort tx).findTransaction other).isSome = (db.findTransaction other).isSome := by
  rw [findTransaction_abort]
  split <;> simp

theorem findTransaction_begin {handle : Uuid} {transaction : Transaction}
    (present : (db.findTransaction other).isSome) :
    ((db.transactions ++ [(handle, transaction)]).lookup other) = db.findTransaction other := by
  obtain ⟨found, present⟩ := Option.isSome_iff_exists.mp present
  rw [List.lookup_append, ← findTransaction, present]
  rfl

/-! ## Preservation -/

theorem Bindings.mono_tools {tools tools' : List ToolRow} {agents : List AgentRow}
    {pendingAgents : List (Uuid × AgentRow)} {agentTools : List AgentToolRow}
    {pendingAgentTools : List (Uuid × AgentToolRow)}
    (bindings : Bindings tools agents pendingAgents agentTools pendingAgentTools)
    (kept : ∀ tool ∈ tools, ∃ later ∈ tools', later.tenantId = tool.tenantId ∧ later.id = tool.id) :
    Bindings tools' agents pendingAgents agentTools pendingAgentTools where
  tool binding member := by
    obtain ⟨tool, present, tenantId, id⟩ := bindings.tool binding member
    obtain ⟨later, found, laterTenant, laterId⟩ := kept tool present
    exact ⟨later, found, laterTenant.trans tenantId, laterId.trans id⟩
  agent := bindings.agent
  pendingAgent := bindings.pendingAgent

section Undo

variable {transactions : List (Uuid × Transaction)}

private theorem Open.discard (pending : db.Open)
    (kept : ∀ other, other ≠ tx → (db.findTransaction other).isSome → (transactions.lookup other).isSome) :
    Open { db.discard tx with transactions := transactions } where
  agents other row member :=
    have ⟨present, different⟩ := mem_without.mp member
    kept other different (pending.agents other row present)
  agentTools other row member :=
    have ⟨present, different⟩ := mem_without.mp member
    kept other different (pending.agentTools other row present)
  runs other row member :=
    have ⟨present, different⟩ := mem_without.mp member
    kept other different (pending.runs other row present)

/-- The uncommitted rows of a transaction may disappear. -/
private theorem WellFormed.discard (wellFormed : db.WellFormed)
    (kept : ∀ other, other ≠ tx → (db.findTransaction other).isSome → (transactions.lookup other).isSome) :
    WellFormed { db.discard tx with transactions := transactions } where
  accounts := wellFormed.accounts
  catalogue := wellFormed.catalogue
  agents :=
    { ids := wellFormed.agents.ids.discard
      iterations := fun agent member => wellFormed.agents.iterations agent (discard_sublist.subset member)
      active := fun agent member => wellFormed.agents.active agent (discard_sublist.subset member) }
  bindings :=
    { tool := fun binding member => wellFormed.bindings.tool binding (discard_sublist.subset member)
      agent := wellFormed.bindings.agent
      pendingAgent := by
        intro other binding member
        obtain ⟨present, different⟩ := mem_without.mp member
        obtain ⟨agent, staged, same⟩ := wellFormed.bindings.pendingAgent other binding present
        exact ⟨agent, mem_without.mpr ⟨staged, different⟩, same⟩ }
  runs :=
    { ids := wellFormed.runs.ids.discard
      scopes := wellFormed.runs.scopes.discard
      messages := fun run member => wellFormed.runs.messages run (discard_sublist.subset member)
      agent := wellFormed.runs.agent
      pendingAgent := by
        intro other run member
        obtain ⟨present, different⟩ := mem_without.mp member
        obtain ⟨agent, seen, same⟩ := wellFormed.runs.pendingAgent other run present
        refine ⟨agent, ?_, same⟩
        rcases mem_visible.mp seen with committed | staged
        · exact mem_visible.mpr (.inl committed)
        · exact mem_visible.mpr (.inr (mem_without.mpr ⟨staged, different⟩))
      fresh := fun other run member => wellFormed.runs.fresh other run (mem_without.mp member).1 }
  traces := wellFormed.traces
  pending := wellFormed.pending.discard kept

end Undo

theorem WellFormed.abort (wellFormed : db.WellFormed) (tx : Uuid) : (db.abort tx).WellFormed :=
  wellFormed.discard fun _ _ present => isSome_findTransaction_abort.trans present

theorem WellFormed.rollback (wellFormed : db.WellFormed) (tx : Uuid) : (db.rollback tx).WellFormed :=
  wellFormed.discard fun _ different present => by
    rw [← findTransaction_rollback different] at present; exact present

theorem WellFormed.lose (wellFormed : db.WellFormed) (statement : Statement) :
    (db.lose statement).WellFormed := by
  unfold Database.lose
  split
  · exact wellFormed.abort _
  · exact wellFormed

/-- A commit needs no check: every row it publishes was already part of the invariant. -/
theorem WellFormed.publish (wellFormed : db.WellFormed) (tx : Uuid) : (db.publish tx).WellFormed where
  accounts := wellFormed.accounts
  catalogue := wellFormed.catalogue
  agents :=
    { ids := wellFormed.agents.ids.publish
      iterations := fun agent member => wellFormed.agents.iterations agent (publish_perm.mem_iff.mp member)
      active := fun agent member => wellFormed.agents.active agent (publish_perm.mem_iff.mp member) }
  bindings :=
    { tool := fun binding member => wellFormed.bindings.tool binding (publish_perm.mem_iff.mp member)
      agent := by
        intro binding member
        rcases List.mem_append.mp member with old | new
        · obtain ⟨agent, present, same⟩ := wellFormed.bindings.agent binding old
          exact ⟨agent, List.mem_append_left _ present, same⟩
        · obtain ⟨agent, staged, same⟩ := wellFormed.bindings.pendingAgent tx binding (mem_own.mp new)
          exact ⟨agent, List.mem_append_right _ (mem_own.mpr staged), same⟩
      pendingAgent := (wellFormed.rollback tx).bindings.pendingAgent }
  runs :=
    { ids := wellFormed.runs.ids.publish
      scopes := wellFormed.runs.scopes.publish
      messages := fun run member => wellFormed.runs.messages run (publish_perm.mem_iff.mp member)
      agent := by
        intro run member
        rcases List.mem_append.mp member with old | new
        · obtain ⟨agent, present, same⟩ := wellFormed.runs.agent run old
          exact ⟨agent, List.mem_append_left _ present, same⟩
        · exact wellFormed.runs.pendingAgent tx run (mem_own.mp new)
      pendingAgent := by
        intro other run member
        obtain ⟨agent, seen, same⟩ := (wellFormed.rollback tx).runs.pendingAgent other run member
        refine ⟨agent, ?_, same⟩
        rcases mem_visible.mp seen with committed | staged
        · exact mem_visible.mpr (.inl (List.mem_append_left _ committed))
        · exact mem_visible.mpr (.inr staged)
      fresh := (wellFormed.rollback tx).runs.fresh }
  traces := by
    intro trace member
    obtain ⟨run, present, same⟩ := wellFormed.traces trace member
    exact ⟨run, List.mem_append_left _ present, same⟩
  pending :=
    have pending := (wellFormed.rollback tx).pending
    ⟨pending.agents, pending.agentTools, pending.runs⟩

/-- An update of run rows that leaves the requests alone. -/
theorem WellFormed.updateRuns (wellFormed : db.WellFormed) (selected : RunRow → Bool)
    {update : RunRow → RunRow} (keeps : ∀ row : RunRow, row.SameRequest (update row)) :
    (db.updateRuns selected update).2.WellFormed := by
  have kept (row : RunRow) : row.SameRequest (if selected row then update row else row) := by
    split
    · exact keeps row
    · exact .refl row
  have old {row : RunRow} (member : row ∈ db.store.runs.map fun row => if selected row then update row else row) :
      ∃ before ∈ db.store.runs, before.SameRequest row := by
    obtain ⟨before, present, rfl⟩ := List.mem_map.mp member
    exact ⟨before, present, kept before⟩
  exact
    { accounts := wellFormed.accounts
      catalogue := wellFormed.catalogue
      agents := wellFormed.agents
      bindings := wellFormed.bindings
      runs :=
        { ids := wellFormed.runs.ids.map_committed fun row => congrArg some (kept row).id
          scopes := wellFormed.runs.scopes.map_committed fun row => (kept row).scope
          messages := by
            intro run member
            rcases mem_everything.mp member with committed | ⟨tx, staged⟩
            · obtain ⟨before, present, same⟩ := old committed
              rw [same.inputMessages]
              exact wellFormed.runs.messages before (mem_everything.mpr (.inl present))
            · exact wellFormed.runs.messages run (mem_everything.mpr (.inr ⟨tx, staged⟩))
          agent := by
            intro run member
            obtain ⟨before, present, same⟩ := old member
            rw [same.tenantId, same.agentId]
            exact wellFormed.runs.agent before present
          pendingAgent := wellFormed.runs.pendingAgent
          fresh := wellFormed.runs.fresh }
      traces := by
        intro trace member
        obtain ⟨run, present, tenantId, id⟩ := wellFormed.traces trace member
        exact ⟨_, List.mem_map_of_mem present, (kept run).tenantId.trans tenantId, (kept run).id.trans id⟩
      pending := ⟨wellFormed.pending.agents, wellFormed.pending.agentTools, wellFormed.pending.runs⟩ }

/-- How the server uses its statements: an agent gets its tools in the transaction that inserts
it, runs are created from decoded messages, and the two unguarded updates of a run meet it in the
status they expect. -/
def Proper (db : Database) : Statement → Prop
  | .insertAgentTool tx tenantId agentId _ =>
      ∃ agent, (tx, agent) ∈ db.pendingAgents ∧ agent.tenantId = tenantId ∧ agent.id = agentId
  | .insertRun _ _ _ inputMessages _ => ∃ messages, inputMessages = ChatMessage.listToValue messages
  | .markRunFailed tenantId runId _ =>
      ∀ row ∈ db.store.runs, row.tenantId = tenantId → row.id = runId → row.status = .pending
  | .finalizeRun tenantId runId status _ _ => status.terminal = true ∧
      ∀ row ∈ db.store.runs, row.tenantId = tenantId → row.id = runId → row.status = .running
  | _ => True

private theorem mem_append_singleton {α : Type} {rows : List α} {row other : α}
    (member : other ∈ rows ++ [row]) : other ∈ rows ∨ other = row := by
  simpa using member

private theorem WellFormed.stageAgent (wellFormed : db.WellFormed) {row : AgentRow}
    (found : (db.findTransaction tx).isSome) (fits : 0 < row.maxIterations ∧ row.maxIterations ≤ 50)
    (active : row.deletedAt = none)
    (new : Free (some ∘ AgentRow.id) tx db.store.agents db.pendingAgents row) :
    WellFormed { db with pendingAgents := db.pendingAgents ++ [(tx, row)] } := by
  have old {agent : AgentRow}
      (member : agent ∈ everything db.store.agents (db.pendingAgents ++ [(tx, row)])) :
      agent ∈ everything db.store.agents db.pendingAgents ∨ agent = row := by
    simpa [everything, or_assoc] using member
  exact
    { accounts := wellFormed.accounts
      catalogue := wellFormed.catalogue
      agents :=
        { ids := wellFormed.agents.ids.stage new.1 new.2
          iterations := fun agent member =>
            (old member).elim (wellFormed.agents.iterations agent) fun same => same ▸ fits
          active := fun agent member =>
            (old member).elim (wellFormed.agents.active agent) fun same => same ▸ active }
      bindings :=
        { tool := wellFormed.bindings.tool
          agent := wellFormed.bindings.agent
          pendingAgent := by
            intro other binding member
            obtain ⟨agent, staged, same⟩ := wellFormed.bindings.pendingAgent other binding member
            exact ⟨agent, List.mem_append_left _ staged, same⟩ }
      runs :=
        { ids := wellFormed.runs.ids
          scopes := wellFormed.runs.scopes
          messages := wellFormed.runs.messages
          agent := wellFormed.runs.agent
          pendingAgent := by
            intro other run member
            obtain ⟨agent, seen, same⟩ := wellFormed.runs.pendingAgent other run member
            refine ⟨agent, mem_visible.mpr ?_, same⟩
            exact (mem_visible.mp seen).imp id fun staged => List.mem_append_left _ staged
          fresh := wellFormed.runs.fresh }
      traces := wellFormed.traces
      pending :=
        { agents := by
            intro other agent member
            rcases mem_append_singleton member with old | new
            · exact wellFormed.pending.agents other agent old
            · cases new; exact found
          agentTools := wellFormed.pending.agentTools
          runs := wellFormed.pending.runs } }

private theorem WellFormed.stageAgentTool (wellFormed : db.WellFormed) {row : AgentToolRow}
    (found : (db.findTransaction tx).isSome)
    (tool : ∃ tool ∈ db.store.tools, tool.tenantId = row.tenantId ∧ tool.id = row.toolId)
    (agent : ∃ agent, (tx, agent) ∈ db.pendingAgents ∧ agent.tenantId = row.tenantId ∧
      agent.id = row.agentId) :
    WellFormed { db with pendingAgentTools := db.pendingAgentTools ++ [(tx, row)] } where
  accounts := wellFormed.accounts
  catalogue := wellFormed.catalogue
  agents := wellFormed.agents
  bindings :=
    { tool := by
        intro binding member
        have member : binding ∈ everything db.store.agentTools db.pendingAgentTools ∨ binding = row := by
          simpa [everything, or_assoc] using member
        rcases member with old | rfl
        · exact wellFormed.bindings.tool binding old
        · exact tool
      agent := wellFormed.bindings.agent
      pendingAgent := by
        intro other binding member
        rcases mem_append_singleton member with old | new
        · exact wellFormed.bindings.pendingAgent other binding old
        · cases new; exact agent }
  runs := wellFormed.runs
  traces := wellFormed.traces
  pending :=
    { agents := wellFormed.pending.agents
      agentTools := by
        intro other binding member
        rcases mem_append_singleton member with old | new
        · exact wellFormed.pending.agentTools other binding old
        · cases new; exact found
      runs := wellFormed.pending.runs }

private theorem WellFormed.stageRun (wellFormed : db.WellFormed) {row : RunRow}
    (found : (db.findTransaction tx).isSome) (fresh : row.Fresh)
    (messages : ∃ messages, row.inputMessages = ChatMessage.listToValue messages)
    (new : Free (some ∘ RunRow.id) tx db.store.runs db.pendingRuns row)
    (unclaimed : Free RunRow.scope tx db.store.runs db.pendingRuns row)
    (agent : ∃ agent ∈ visible tx db.store.agents db.pendingAgents,
      agent.tenantId = row.tenantId ∧ agent.id = row.agentId) :
    WellFormed { db with pendingRuns := db.pendingRuns ++ [(tx, row)] } where
  accounts := wellFormed.accounts
  catalogue := wellFormed.catalogue
  agents := wellFormed.agents
  bindings := wellFormed.bindings
  runs :=
    { ids := wellFormed.runs.ids.stage new.1 new.2
      scopes := wellFormed.runs.scopes.stage unclaimed.1 unclaimed.2
      messages := by
        intro run member
        have member : run ∈ everything db.store.runs db.pendingRuns ∨ run = row := by
          simpa [everything, or_assoc] using member
        rcases member with old | rfl
        · exact wellFormed.runs.messages run old
        · exact messages
      agent := wellFormed.runs.agent
      pendingAgent := by
        intro other run member
        rcases mem_append_singleton member with old | new
        · exact wellFormed.runs.pendingAgent other run old
        · cases new; exact agent
      fresh := by
        intro other run member
        rcases mem_append_singleton member with old | new
        · exact wellFormed.runs.fresh other run old
        · cases new; exact fresh }
  traces := wellFormed.traces
  pending :=
    { agents := wellFormed.pending.agents
      agentTools := wellFormed.pending.agentTools
      runs := by
        intro other run member
        rcases mem_append_singleton member with old | new
        · exact wellFormed.pending.runs other run old
        · cases new; exact found }

theorem WellFormed.executed {c : Choice} {db' : Database} {statement : Statement}
    {answer : Except SqlxError statement.Row} (wellFormed : db.WellFormed) (proper : db.Proper statement)
    (ran : Executed c db statement answer db') : db'.WellFormed := by
  cases ran with
  | unavailable failing => exact wellFormed.lose statement
  | select healthy answered => exact wellFormed
  | noTransaction inside absent => exact wellFormed
  | inFailed inside found aborted => exact wellFormed
  | violated outside healthy => exact wellFormed
  | violatedWithin inside found alive healthy => exact wellFormed.abort _
  | createTenant =>
    refine { wellFormed with accounts := ?_, pending := ?_ }
    · refine ⟨wellFormed.accounts.prefixes, ?_, wellFormed.accounts.active⟩
      intro key member
      obtain ⟨tenant, present, same⟩ := wellFormed.accounts.tenant key member
      exact ⟨tenant, List.mem_append_left _ present, same⟩
    · exact ⟨wellFormed.pending.agents, wellFormed.pending.agentTools, wellFormed.pending.runs⟩
  | createApiKey new tenant =>
    refine { wellFormed with accounts := ?_, pending := ?_ }
    · refine ⟨wellFormed.accounts.prefixes.append_singleton ?_, ?_, ?_⟩
      · intro other member _ same
        exact new other member (Option.some.inj same)
      · intro key member
        rcases mem_append_singleton member with old | rfl
        · exact wellFormed.accounts.tenant key old
        · exact tenant
      · intro key member
        rcases mem_append_singleton member with old | rfl
        · exact wellFormed.accounts.active key old
        · rfl
    · exact ⟨wellFormed.pending.agents, wellFormed.pending.agentTools, wellFormed.pending.runs⟩
  | createTool new =>
    refine { wellFormed with catalogue := ?_, bindings := ?_, pending := ?_ }
    · refine ⟨wellFormed.catalogue.ids.append_singleton ?_, ?_⟩
      · intro other member _ same
        exact new other member (Option.some.inj same)
      · intro tool member
        rcases mem_append_singleton member with old | rfl
        · exact wellFormed.catalogue.generated tool old
        · exact c.id_not_nil
    · exact wellFormed.bindings.mono_tools fun tool present =>
        ⟨tool, List.mem_append_left _ present, rfl, rfl⟩
    · exact ⟨wellFormed.pending.agents, wellFormed.pending.agentTools, wellFormed.pending.runs⟩
  | deleteTool =>
    refine { wellFormed with catalogue := ?_, bindings := ?_, pending := ?_ }
    · refine ⟨wellFormed.catalogue.ids.map fun row => ?_, ?_⟩
      · simp only [Function.comp_apply]; split <;> rfl
      · intro tool member
        obtain ⟨before, present, rfl⟩ := List.mem_map.mp member
        split <;> exact wellFormed.catalogue.generated before present
    · refine wellFormed.bindings.mono_tools fun tool present => ⟨_, List.mem_map_of_mem present, ?_⟩
      split <;> exact ⟨rfl, rfl⟩
    · exact ⟨wellFormed.pending.agents, wellFormed.pending.agentTools, wellFormed.pending.runs⟩
  | begin new =>
    refine { wellFormed with pending := ?_ }
    have kept {other : Uuid} (present : (db.findTransaction other).isSome) :
        ((db.transactions ++ [(c.id, Transaction.mk c.now false)]).lookup other).isSome := by
      rwa [findTransaction_begin present]
    exact ⟨fun other row member => kept (wellFormed.pending.agents other row member),
      fun other row member => kept (wellFormed.pending.agentTools other row member),
      fun other row member => kept (wellFormed.pending.runs other row member)⟩
  | insertAgent found alive same fits new =>
    subst same
    exact wellFormed.stageAgent (by simp [found]) fits rfl new
  | toolExists found alive => exact wellFormed
  | insertAgentTool found alive tool => exact wellFormed.stageAgentTool (by simp [found]) tool proper
  | insertRun found alive same new unclaimed agent =>
    subst same
    exact wellFormed.stageRun (by simp [found]) ⟨rfl, rfl, rfl, rfl, rfl⟩ proper new unclaimed agent
  | findRunByKey found alive => exact wellFormed
  | commitAborted found aborted => exact wellFormed.rollback _
  | commit found alive => exact wellFormed.publish _
  | markRunFailed => exact wellFormed.updateRuns _ fun row => ⟨rfl, rfl, rfl, rfl, rfl, rfl⟩
  | beginRunExecution => exact wellFormed.updateRuns _ fun row => ⟨rfl, rfl, rfl, rfl, rfl, rfl⟩
  | finalizeRun => exact wellFormed.updateRuns _ fun row => ⟨rfl, rfl, rfl, rfl, rfl, rfl⟩
  | appendEvent new run =>
    refine { wellFormed with traces := ?_, pending := ?_ }
    · intro trace member
      rcases mem_append_singleton member with old | rfl
      · exact wellFormed.traces trace old
      · exact run
    · exact ⟨wellFormed.pending.agents, wellFormed.pending.agentTools, wellFormed.pending.runs⟩

end Database

end AgentPlatform
