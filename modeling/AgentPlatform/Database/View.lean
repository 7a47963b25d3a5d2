import AgentPlatform.Database.Evolution
import AgentPlatform.Database.Tenancy

/-! # What a tenant can see

A statement on behalf of a tenant depends on the rows of this tenant and on its own transaction only.
The view of a tenant is the database with nothing else in it: every statement of the tenant has the same
answer there, and the view afterwards is the one that the statement leaves behind.
-/

set_option autoImplicit false

namespace AgentPlatform

open Relational

/-- The statement stores the id that is generated for it. -/
def Statement.generates : Statement → Bool
  | createTool .. | insertAgent .. | insertRun .. | appendEvent .. => true
  | _ => false

/-- The statement adds a row with a foreign key to its tenant. -/
def Statement.refersToTenant : Statement → Bool
  | createTool .. | insertAgent .. => true
  | _ => false

namespace Database

/-- What the transaction has inserted for this tenant. -/
def staged {α : Type} (tenant : α → Uuid) (tenantId : Uuid) (tx : Option Uuid)
    (pending : List (Uuid × α)) : List (Uuid × α) :=
  match tx with
  | none => []
  | some tx => ((own tx pending).filter (tenant · == tenantId)).map (tx, ·)

/-- The rows of a tenant, and its transaction with what it has inserted. -/
def view (tenantId : Uuid) (tx : Option Uuid) (db : Database) : Database where
  store := { db.store.ofTenant tenantId with tenants := [⟨tenantId, "", 0⟩] }
  transactions := (tx.bind fun tx => (db.findTransaction tx).map (tx, ·)).toList
  pendingAgents := staged AgentRow.tenantId tenantId tx db.pendingAgents
  pendingAgentTools := staged AgentToolRow.tenantId tenantId tx db.pendingAgentTools
  pendingRuns := staged RunRow.tenantId tenantId tx db.pendingRuns

variable {db db' : Database} {c : Choice} {statement : Statement} {tenantId tx : Uuid} {view? : Option Uuid}

section Staged

variable {α : Type} {tenant : α → Uuid} {rows : List α} {pending : List (Uuid × α)} {row : α}

theorem own_staged : own tx (staged tenant tenantId (some tx) pending) = (own tx pending).filter
    (tenant · == tenantId) := by
  simp only [staged]
  induction (own tx pending).filter (tenant · == tenantId) with
  | nil => rfl
  | cons row rest ih =>
      rw [List.map_cons, ← List.singleton_append, own_append, own_singleton_self, ih, List.singleton_append]

theorem without_staged : without tx (staged tenant tenantId (some tx) pending) = [] := by
  simp only [staged, without, List.filter_eq_nil_iff, List.mem_map]
  rintro _ ⟨row, _, rfl⟩
  simp

theorem visible_staged : visible tx (rows.filter (tenant · == tenantId)) (staged tenant tenantId (some tx) pending) =
    (visible tx rows pending).filter (tenant · == tenantId) := by
  rw [visible, own_staged, visible, List.filter_append]

theorem staged_insert (mine : tenant row = tenantId) : staged tenant tenantId (some tx) (pending ++ [(tx, row)]) =
    staged tenant tenantId (some tx) pending ++ [(tx, row)] := by
  simp [staged, mine]

theorem staged_without : staged tenant tenantId (some tx) (without tx pending) = [] := by
  simp [staged]

end Staged

theorem findTransaction_view : (db.view tenantId (some tx)).findTransaction tx = db.findTransaction tx := by
  simp only [findTransaction, view, Option.bind_some]
  cases db.transactions.lookup tx <;> simp

private theorem eq_of_parts {a b : Database} (store : a.store = b.store)
    (transactions : a.transactions = b.transactions) (agents : a.pendingAgents = b.pendingAgents)
    (agentTools : a.pendingAgentTools = b.pendingAgentTools) (runs : a.pendingRuns = b.pendingRuns) : a = b := by
  cases a
  cases b
  cases store
  cases transactions
  cases agents
  cases agentTools
  cases runs
  rfl

theorem abort_view : (db.abort tx).view tenantId (some tx) = (db.view tenantId (some tx)).abort tx := by
  have entry : (db.abort tx).findTransaction tx = (db.findTransaction tx).map fun transaction =>
      { transaction with aborted := true } := by
    rw [findTransaction_abort, if_pos rfl]
  refine eq_of_parts rfl ?_ (staged_without.trans without_staged.symm) (staged_without.trans without_staged.symm)
    (staged_without.trans without_staged.symm)
  simp only [view, abort, Option.bind_some] at entry ⊢
  rw [entry]
  cases db.findTransaction tx <;> simp

theorem rollback_view : (db.rollback tx).view tenantId (some tx) = (db.view tenantId (some tx)).rollback tx := by
  refine eq_of_parts rfl ?_ (staged_without.trans without_staged.symm) (staged_without.trans without_staged.symm)
    (staged_without.trans without_staged.symm)
  have entry : (db.rollback tx).findTransaction tx = none := findTransaction_rollback_self
  simp only [view, rollback, Option.bind_some] at entry ⊢
  rw [entry]
  cases db.findTransaction tx <;> simp [without]

theorem publish_view : (db.publish tx).view tenantId (some tx) = (db.view tenantId (some tx)).publish tx := by
  refine eq_of_parts ?_ ?_ (staged_without.trans without_staged.symm) (staged_without.trans without_staged.symm)
    (staged_without.trans without_staged.symm)
  · simp only [view, publish, Store.ofTenant, own_staged, List.filter_append]
  · have rolled := congrArg transactions (rollback_view : (db.rollback tx).view tenantId (some tx) = _)
    exact rolled

theorem lose_view (inside : statement.transaction? = view?) :
    (db.lose statement).view tenantId view? = (db.view tenantId view?).lose statement := by
  unfold lose
  rw [inside]
  cases view? with
  | none => rfl
  | some tx => exact abort_view

/-- A statement within the transaction. -/
theorem within_view {α : Type} {body body' : Transaction → Option (Except SqlxError (α × Database))}
    {answer : Except SqlxError α} (ran : db.within tx body = some (answer, db'))
    (same : ∀ transaction result, body transaction = some result →
      body' transaction = some (result.map fun outcome => (outcome.1, outcome.2.view tenantId (some tx)))) :
    (db.view tenantId (some tx)).within tx body' = some (answer, db'.view tenantId (some tx)) := by
  unfold within at ran ⊢
  rw [findTransaction_view]
  cases found : db.findTransaction tx with
  | none =>
    rw [found] at ran
    cases ran
    rfl
  | some transaction =>
    rw [found] at ran
    dsimp only at ran ⊢
    split at ran
    · next dead =>
      cases ran
      rw [if_pos dead]
    · next alive =>
      rw [if_neg alive]
      obtain ⟨result, called, made⟩ := Option.map_eq_some_iff.mp ran
      rw [same transaction result called]
      rcases result with error | ⟨row, next⟩
      · cases made
        exact congrArg some (congrArg (Prod.mk _) abort_view.symm)
      · cases made
        rfl

/-! ## Reading and updating -/

theorem updateRuns_view {selected : RunRow → Bool} {update : RunRow → RunRow} {answer : Except SqlxError ℕ}
    (within : ∀ row, selected row = true → (row.tenantId == tenantId) = true)
    (keeps : ∀ row, (update row).tenantId = row.tenantId) (ran : db.updateRuns selected update = (answer, db')) :
    (db.view tenantId view?).updateRuns selected update = (answer, db'.view tenantId view?) := by
  cases ran
  refine Prod.ext (congrArg Except.ok (countP_filter_within within)) (eq_of_parts ?_ rfl rfl rfl rfl)
  have updated : ((db.store.runs.map fun row => if selected row then update row else row).filter
      (·.tenantId == tenantId)) = (db.store.runs.filter (·.tenantId == tenantId)).map fun row =>
      if selected row then update row else row := by
    apply filter_map_keep
    intro row
    split
    · rw [keeps]
    · rfl
  simp only [updateRuns, Store.updateRuns, view, Store.ofTenant, updated]

theorem deleteTool_view {toolId : Uuid} : (db.view tenantId view?).deleteTool c tenantId toolId =
    ((db.deleteTool c tenantId toolId).1, (db.deleteTool c tenantId toolId).2.view tenantId view?) := by
  refine Prod.ext (congrArg Except.ok (countP_filter_within fun row hit => ?_)) (eq_of_parts ?_ rfl rfl rfl rfl)
  · simp only [Bool.and_eq_true] at hit
    exact hit.1.1
  have updated := @filter_map_keep ToolRow db.store.tools (·.tenantId == tenantId) (fun row =>
    if row.tenantId == tenantId && row.id == toolId &&
      row.deletedAt == none then { row with deletedAt := some c.now } else row)
    fun row => by split <;> rfl
  simp only [deleteTool, view, Store.ofTenant, updated]

/-- A statement that reads for a tenant answers from the rows of this tenant. -/
theorem select_view (named : statement.tenant? = some tenantId) :
    (db.view tenantId view?).store.select c statement = db.store.select c statement := by
  have tools {selected : ToolRow → Bool} (within : ∀ row, selected row = true → (row.tenantId == tenantId) = true) :
      (db.view tenantId view?).store.tools.filter selected = db.store.tools.filter selected :=
        filter_filter_within within
  have bindings (agentId : Uuid) :
      (db.view tenantId view?).store.bindings tenantId agentId = db.store.bindings tenantId agentId :=
    filter_filter_within fun row hit => (Bool.and_eq_true_iff.mp hit).1
  have active : (db.view tenantId view?).store.activeTools tenantId = db.store.activeTools tenantId :=
    tools fun row hit => (Bool.and_eq_true_iff.mp hit).1
  cases statement with
  | listTools owner =>
    obtain rfl := Option.some.inj named
    simp only [Store.select, active]
  | getAgent owner agentId =>
    obtain rfl := Option.some.inj named
    refine congrArg some (find?_filter_within fun row hit => ?_)
    simp only [Bool.and_eq_true] at hit
    exact hit.1.1
  | getAgentToolIds owner agentId =>
    obtain rfl := Option.some.inj named
    simp only [Store.select, bindings]
  | getRun owner runId =>
    obtain rfl := Option.some.inj named
    exact congrArg some (find?_filter_within fun row hit => (Bool.and_eq_true_iff.mp hit).1)
  | getTrace owner runId =>
    obtain rfl := Option.some.inj named
    have events : (db.view owner view?).store.traceRows owner runId = db.store.traceRows owner runId :=
      filter_filter_within fun row hit => (Bool.and_eq_true_iff.mp hit).1
    simp only [Store.select, events]
  | getTool owner toolId =>
    obtain rfl := Option.some.inj named
    exact congrArg some (find?_filter_within fun row hit => (Bool.and_eq_true_iff.mp hit).1)
  | listAgentTools owner agentId =>
    obtain rfl := Option.some.inj named
    simp only [Store.select, bindings]
    refine congrArg some (List.flatMap_congr fun binding member => tools fun row hit => ?_)
    have mine := (List.mem_filter.mp ((List.perm_insertionSort ..).mem_iff.mp member)).2
    simp only [Bool.and_eq_true, beq_iff_eq] at mine hit ⊢
    exact hit.1.trans mine.1
  | findUnboundActiveTool owner agentId =>
    obtain rfl := Option.some.inj named
    simp only [Store.select, Store.unboundTools_eq, active, bindings]
  | findActiveApiKeyByPrefix keyPrefix => cases named
  | _ => rfl

/-! ## Inserting -/

/-- A row with a generated id is new everywhere. -/
private theorem any_id_eq_false {α : Type} {id : α → Uuid} {rows : List α} {new : Uuid}
    (fresh : ¬ ∃ row ∈ rows, id row = new) : (rows.any fun row => id row == new) = false := by
  simpa using fresh

private theorem any_id_filter {α : Type} {id : α → Uuid} {inside : α → Bool} {rows : List α} {new : Uuid}
    (fresh : (rows.any fun row => id row == new) = false) :
    ((rows.filter inside).any fun row => id row == new) = false := by
  simp only [List.any_eq_false, List.mem_filter] at fresh ⊢
  exact fun row member => fresh row member.1

theorem createTool_view {name : String} {inputSchema mockHandler : Value} (fresh : ¬ db.UsesId c.id)
    (lives : ∃ tenant ∈ db.store.tenants, tenant.id = tenantId) :
    (db.view tenantId view?).createTool c tenantId name inputSchema mockHandler =
      ((db.createTool c tenantId name inputSchema mockHandler).1,
        (db.createTool c tenantId name inputSchema mockHandler).2.view tenantId view?) := by
  have new : (db.store.tools.any fun row => row.id == c.id) = false :=
    any_id_eq_false fun used => fresh (.inr (.inr (.inl used)))
  have new' : ((db.view tenantId view?).store.tools.any fun row => row.id == c.id) = false := any_id_filter new
  have there : (db.store.tenants.any fun row => row.id == tenantId) = true := by simpa using lives
  have there' : ((db.view tenantId view?).store.tenants.any fun row => row.id == tenantId) = true := by simp [view]
  have names (row : ToolRow) (mine : row.activeName = some (tenantId, name)) :
      ((db.view tenantId view?).store.tools.any fun other => other.activeName == row.activeName) =
        db.store.tools.any fun other => other.activeName == row.activeName := by
    apply any_filter_within
    intro other same
    rw [mine, ToolRow.activeName] at same
    simp only [beq_iff_eq, Option.ite_none_right_eq_some, Option.some.injEq, Prod.mk.injEq] at same ⊢
    exact same.2.1
  simp only [createTool, new, new', there, there', Bool.not_true, Bool.false_eq_true, if_false]
  rw [names ⟨c.id, tenantId, name, inputSchema, mockHandler, c.now, none⟩ rfl]
  split_ifs
  · rfl
  · rfl
  · rfl
  · refine Prod.ext rfl (eq_of_parts ?_ rfl rfl rfl rfl)
    simp [view, Store.ofTenant]

theorem appendEvent_view {runId : Uuid} {eventType : EventType} {payload : Value} (fresh : ¬ db.UsesId c.id) :
    (db.view tenantId view?).appendEvent c tenantId runId eventType payload =
      ((db.appendEvent c tenantId runId eventType payload).1,
        (db.appendEvent c tenantId runId eventType payload).2.view tenantId view?) := by
  have new : (db.store.runTraces.any fun row => row.id == c.id) = false :=
    any_id_eq_false fun used => fresh (.inr (.inr (.inr (.inr (.inr used)))))
  have new' : ((db.view tenantId view?).store.runTraces.any fun row => row.id == c.id) = false := any_id_filter new
  have events : (db.view tenantId view?).store.traceRows tenantId runId = db.store.traceRows tenantId runId :=
    filter_filter_within fun row hit => (Bool.and_eq_true_iff.mp hit).1
  have number : (db.view tenantId view?).store.nextSeq tenantId runId = db.store.nextSeq tenantId runId := by
    rw [Store.nextSeq, events, Store.nextSeq]
  have runs : ((db.view tenantId view?).store.runs.any fun run => run.tenantId == tenantId && run.id == runId) =
      db.store.runs.any fun run => run.tenantId == tenantId && run.id == runId :=
    any_filter_within fun row hit => (Bool.and_eq_true_iff.mp hit).1
  simp only [appendEvent, number, events, new, new', runs, Bool.false_eq_true, if_false]
  split_ifs
  · rfl
  · rfl
  · rfl
  · refine Prod.ext rfl (eq_of_parts ?_ rfl rfl rfl rfl)
    simp [view, Store.ofTenant]
  · rfl

section Transactions

variable {agentId : Uuid}

/-- In its view a transaction is alone. -/
private theorem any_without_staged {α : Type} {tenant : α → Uuid} {pending : List (Uuid × α)}
    (selected : Uuid × α → Bool) : (without tx (staged tenant tenantId (some tx) pending)).any selected = false := by
  rw [without_staged, List.any_nil]

/-- Rows whose entries name their tenant clash with rows of the same tenant only. -/
private theorem any_clash_filter {α κ : Type} [BEq κ] [LawfulBEq κ] {tenant : α → Uuid} {index : α → Option κ}
    {owner : κ → Uuid} (carries : ∀ row entry, index row = some entry → owner entry = tenant row) (rows : List α)
    {row : α} (mine : tenant row = tenantId) :
    ((rows.filter (tenant · == tenantId)).any fun other => index row != none && index other == index row) =
      rows.any fun other => index row != none && index other == index row := by
  apply any_filter_within
  intro other clash
  simp only [Bool.and_eq_true, bne_iff_ne, beq_iff_eq] at clash ⊢
  obtain ⟨entry, present⟩ := Option.ne_none_iff_exists'.mp clash.1
  rw [← mine, ← carries other entry (clash.2.trans present), carries row entry present]

private theorem agents_view :
    visible tx (db.view tenantId (some tx)).store.agents (db.view tenantId (some tx)).pendingAgents =
    (visible tx db.store.agents db.pendingAgents).filter (·.tenantId == tenantId) := visible_staged

theorem insertAgent_view {name : Option String} {systemPrompt : String} {maxIterations : Int}
    {answer : Except SqlxError AgentRow} (fresh : ¬ db.UsesId c.id)
    (lives : ∃ tenant ∈ db.store.tenants, tenant.id = tenantId)
    (ran : db.insertAgent c tx tenantId name systemPrompt maxIterations = some (answer, db')) :
    (db.view tenantId (some tx)).insertAgent c tx tenantId name systemPrompt maxIterations =
      some (answer, db'.view tenantId (some tx)) := by
  apply within_view ran
  intro transaction result called
  have new : ((visible tx db.store.agents db.pendingAgents).any fun row => row.id == c.id) = false :=
    any_id_eq_false fun ⟨row, member, same⟩ => fresh (.inr (.inr (.inr (.inl ⟨row, visible_subset member, same⟩))))
  have there : (db.store.tenants.any fun row => row.id == tenantId) = true := by simpa using lives
  have there' : ((db.view tenantId (some tx)).store.tenants.any fun row => row.id == tenantId) = true :=
    by simp [view]
  have alone (selected : Uuid × AgentRow → Bool) :
      (without tx (db.view tenantId (some tx)).pendingAgents).any selected = false :=
    any_without_staged selected
  have carries (row : AgentRow) (entry : Uuid × String) (named : row.activeName = some entry) :
      entry.1 = row.tenantId := by
    simp only [AgentRow.activeName, Option.ite_none_right_eq_some, Option.map_eq_some_iff] at named
    obtain ⟨_, _, _, rfl⟩ := named
    rfl
  have names (row : AgentRow) (mine : row.tenantId = tenantId) :=
    any_clash_filter carries (visible tx db.store.agents db.pendingAgents) mine
  have inserted (row : AgentRow) (mine : row.tenantId = tenantId) :
      { db with pendingAgents := db.pendingAgents ++ [(tx, row)] }.view tenantId (some tx) =
        { db.view tenantId (some tx) with
        pendingAgents := (db.view tenantId (some tx)).pendingAgents ++ [(tx, row)] } :=
    eq_of_parts rfl rfl (staged_insert mine) rfl rfl
  simp only [agents_view, new, any_id_filter new, alone, there, there', Bool.not_true,
    Bool.false_eq_true, if_false] at called ⊢
  rw [names ⟨c.id, tenantId, name, systemPrompt, maxIterations, transaction.startedAt, none⟩ rfl]
  split_ifs at called with fits waiting clash blocked <;> cases called
  · rw [if_neg (not_not_intro fits), if_pos clash]
    rfl
  · rw [if_neg (not_not_intro fits), if_neg clash]
    exact congrArg (fun next => some (Except.ok (_, next))) (inserted _ rfl).symm
  · rw [if_pos fits]
    rfl

theorem insertAgentTool_view {toolId : Uuid} {answer : Except SqlxError Unit}
    (ran : db.insertAgentTool tx tenantId agentId toolId = some (answer, db')) :
    (db.view tenantId (some tx)).insertAgentTool tx tenantId agentId toolId = some
    (answer, db'.view tenantId (some tx)) := by
  apply within_view ran
  intro transaction result called
  have alone (selected : Uuid × AgentToolRow → Bool) :
      (without tx (db.view tenantId (some tx)).pendingAgentTools).any selected = false :=
    any_without_staged selected
  have bindings : ((visible tx (db.view tenantId (some tx)).store.agentTools
        (db.view tenantId (some tx)).pendingAgentTools).any
        fun row => row.tenantId == tenantId && row.agentId == agentId && row.toolId == toolId) =
      (visible tx db.store.agentTools db.pendingAgentTools).any
        fun row => row.tenantId == tenantId && row.agentId == agentId && row.toolId == toolId := by
    refine (congrArg (List.any · _) visible_staged).trans (any_filter_within fun row hit => ?_)
    simp only [Bool.and_eq_true] at hit
    exact hit.1.1
  have agents : (((visible tx db.store.agents db.pendingAgents).filter (·.tenantId == tenantId)).any
        fun agent => agent.tenantId == tenantId && agent.id == agentId) =
      (visible tx db.store.agents db.pendingAgents).any fun agent =>
          agent.tenantId == tenantId && agent.id == agentId :=
    any_filter_within fun row hit => (Bool.and_eq_true_iff.mp hit).1
  have tools : ((db.view tenantId (some tx)).store.tools.any fun tool => tool.tenantId == tenantId &&
      tool.id == toolId) = db.store.tools.any fun tool => tool.tenantId == tenantId && tool.id == toolId :=
    any_filter_within fun row hit => (Bool.and_eq_true_iff.mp hit).1
  have inserted (row : AgentToolRow) (mine : row.tenantId = tenantId) :
      { db with pendingAgentTools := db.pendingAgentTools ++ [(tx, row)] }.view tenantId (some tx) =
        { db.view tenantId (some tx) with
        pendingAgentTools := (db.view tenantId (some tx)).pendingAgentTools ++ [(tx, row)] } :=
    eq_of_parts rfl rfl rfl (staged_insert mine) rfl
  simp only [bindings, agents_view, agents, tools, alone, Bool.false_eq_true, if_false] at called ⊢
  split_ifs at called with taken waiting agentless toolless <;> cases called
  · rw [if_pos taken]
    rfl
  · rw [if_neg taken, if_pos agentless]
    rfl
  · rw [if_neg taken, if_neg agentless, if_pos toolless]
    rfl
  · rw [if_neg taken, if_neg agentless, if_neg toolless]
    exact congrArg (fun next => some (Except.ok (_, next))) (inserted _ rfl).symm

theorem insertRun_view {inputMessages : Value} {idempotencyKey : Option String} {answer : Except SqlxError RunRow}
    (fresh : ¬ db.UsesId c.id)
    (ran : db.insertRun c tx tenantId agentId inputMessages idempotencyKey = some (answer, db')) :
    (db.view tenantId (some tx)).insertRun c tx tenantId agentId inputMessages idempotencyKey =
      some (answer, db'.view tenantId (some tx)) := by
  apply within_view ran
  intro transaction result called
  have new : ((visible tx db.store.runs db.pendingRuns).any fun row => row.id == c.id) = false :=
    any_id_eq_false fun ⟨row, member, same⟩ =>
      fresh (.inr (.inr (.inr (.inr (.inl ⟨row, visible_subset member, same⟩)))))
  have runs : visible tx (db.view tenantId (some tx)).store.runs (db.view tenantId (some tx)).pendingRuns =
      (visible tx db.store.runs db.pendingRuns).filter (·.tenantId == tenantId) := visible_staged
  have alone (selected : Uuid × RunRow → Bool) :
      (without tx (db.view tenantId (some tx)).pendingRuns).any selected = false :=
    any_without_staged selected
  have carries (row : RunRow) (entry : Uuid × Uuid × String) (named : row.scope = some entry) :
      entry.1 = row.tenantId := by
    obtain ⟨_, _, rfl⟩ := Option.map_eq_some_iff.mp named
    rfl
  have scopes (row : RunRow) (mine : row.tenantId = tenantId) :=
    any_clash_filter carries (visible tx db.store.runs db.pendingRuns) mine
  have agents : (((visible tx db.store.agents db.pendingAgents).filter (·.tenantId == tenantId)).any
        fun agent => agent.tenantId == tenantId && agent.id == agentId) =
      (visible tx db.store.agents db.pendingAgents).any fun agent =>
          agent.tenantId == tenantId && agent.id == agentId :=
    any_filter_within fun row hit => (Bool.and_eq_true_iff.mp hit).1
  have inserted (row : RunRow) (mine : row.tenantId = tenantId) :
      { db with pendingRuns := db.pendingRuns ++ [(tx, row)] }.view tenantId (some tx) =
        { db.view tenantId (some tx) with pendingRuns := (db.view tenantId (some tx)).pendingRuns ++ [(tx, row)] } :=
    eq_of_parts rfl rfl rfl rfl (staged_insert mine)
  simp only [runs, agents_view, agents, new, any_id_filter new, alone, Bool.false_eq_true, if_false] at called ⊢
  rw [scopes ⟨c.id, tenantId, agentId, .pending, inputMessages, none, none, idempotencyKey,
    transaction.startedAt, none, none⟩ rfl]
  split_ifs at called with shapeless waiting clash blocked orphan <;> cases called
  · rw [if_pos shapeless]
    rfl
  · rw [if_neg shapeless, if_pos clash]
    rfl
  · rw [if_neg shapeless, if_neg clash, if_pos orphan]
    rfl
  · rw [if_neg shapeless, if_neg clash, if_neg orphan]
    exact congrArg (fun next => some (Except.ok (_, next))) (inserted _ rfl).symm

theorem toolExists_view {toolId : Uuid} {answer : Except SqlxError Bool}
    (ran : db.toolExists tx tenantId toolId = some (answer, db')) :
    (db.view tenantId (some tx)).toolExists tx tenantId toolId = some (answer, db'.view tenantId (some tx)) := by
  apply within_view ran
  intro transaction result called
  cases called
  have tools : ((db.view tenantId (some tx)).store.tools.any fun row => row.tenantId == tenantId &&
      row.id == toolId && row.deletedAt == none) =
      db.store.tools.any fun row => row.tenantId == tenantId && row.id == toolId && row.deletedAt == none := by
    apply any_filter_within
    intro row hit
    simp only [Bool.and_eq_true] at hit
    exact hit.1.1
  rw [tools]
  rfl

theorem findRunByKey_view {idempotencyKey : Option String} {answer : Except SqlxError (Option RunRow)}
    (ran : db.findRunByKey tx tenantId agentId idempotencyKey = some (answer, db')) :
    (db.view tenantId (some tx)).findRunByKey tx tenantId agentId idempotencyKey = some
    (answer, db'.view tenantId (some tx)) := by
  apply within_view ran
  intro transaction result called
  cases called
  have runs : visible tx (db.view tenantId (some tx)).store.runs (db.view tenantId (some tx)).pendingRuns =
      (visible tx db.store.runs db.pendingRuns).filter (·.tenantId == tenantId) := visible_staged
  rw [runs, find?_filter_within]
  · rfl
  · intro row hit
    simp only [Bool.and_eq_true] at hit
    exact hit.1.1.1

end Transactions

/-- The statement concerns this tenant only, and it is executed within this transaction. -/
def Within (tenantId : Uuid) (view? : Option Uuid) (statement : Statement) : Prop :=
  statement.transaction? = view? ∧ (statement.tenant? = some tenantId ∨ ∃ tx, statement = .commit tx)

private theorem commit_view : (db.view tenantId (some tx)).commit tx =
    ((db.commit tx).1, (db.commit tx).2.view tenantId (some tx)) := by
  simp only [commit, findTransaction_view]
  cases db.findTransaction tx with
  | none => rfl
  | some transaction =>
    dsimp only
    split
    · rw [rollback_view]
    · rw [publish_view]

/-- A tenant only notices its own rows: the statement has the same answer and effect on its view. -/
theorem execute_view {answer : Except SqlxError statement.Row} (within : Within tenantId view? statement)
    (fresh : statement.generates = true → ¬ db.UsesId c.id)
    (lives : statement.refersToTenant = true → ∃ tenant ∈ db.store.tenants, tenant.id = tenantId)
    (ran : db.execute c statement = some (answer, db')) :
    (db.view tenantId view?).execute c statement = some (answer, db'.view tenantId view?) := by
  by_cases failing : c.fail = true
  · rw [execute_failing failing] at ran ⊢
    cases ran
    rw [lose_view within.1]
  obtain ⟨inside, named | ⟨tx, rfl⟩⟩ := within
  · have reads {row : statement.Row} (answered : db.store.select c statement = some row) :
        (db.view tenantId view?).execute c statement = some (answer, db'.view tenantId view?) := by
      have healthy : c.fail = false := Bool.eq_false_iff.mpr failing
      rw [execute_select healthy answered] at ran
      cases ran
      exact execute_select healthy ((select_view named).trans answered)
    cases statement with
    | listTools | getAgent | getAgentToolIds | getRun | getTrace | getTool | listAgentTools | findUnboundActiveTool =>
        exact reads rfl
    | createTool owner name inputSchema mockHandler =>
      obtain rfl := Option.some.inj named
      simp only [execute, if_neg failing, Option.some.injEq] at ran ⊢
      rw [createTool_view (fresh rfl) (lives rfl), ran]
    | deleteTool owner toolId =>
      obtain rfl := Option.some.inj named
      simp only [execute, if_neg failing, Option.some.injEq] at ran ⊢
      rw [deleteTool_view, ran]
    | markRunFailed owner runId errorReason =>
      obtain rfl := Option.some.inj named
      simp only [execute, if_neg failing, Option.some.injEq] at ran ⊢
      exact updateRuns_view (fun row hit => (Bool.and_eq_true_iff.mp hit).1) (fun _ => rfl) ran
    | beginRunExecution owner runId =>
      obtain rfl := Option.some.inj named
      simp only [execute, if_neg failing, Option.some.injEq] at ran ⊢
      refine updateRuns_view (fun row hit => ?_) (fun _ => rfl) ran
      simp only [Bool.and_eq_true] at hit
      exact hit.1.2
    | finalizeRun owner runId status finalAnswer errorReason =>
      obtain rfl := Option.some.inj named
      simp only [execute, if_neg failing, Option.some.injEq] at ran ⊢
      exact updateRuns_view (fun row hit => (Bool.and_eq_true_iff.mp hit).1) (fun _ => rfl) ran
    | appendEvent owner runId eventType payload =>
      obtain rfl := Option.some.inj named
      simp only [execute, if_neg failing, Option.some.injEq] at ran ⊢
      rw [appendEvent_view (fresh rfl), ran]
    | insertAgent tx owner name systemPrompt maxIterations =>
      obtain rfl := Option.some.inj named
      obtain rfl := inside
      simp only [execute, if_neg failing] at ran ⊢
      exact insertAgent_view (fresh rfl) (lives rfl) ran
    | toolExists tx owner toolId =>
      obtain rfl := Option.some.inj named
      obtain rfl := inside
      simp only [execute, if_neg failing] at ran ⊢
      exact toolExists_view ran
    | insertAgentTool tx owner agentId toolId =>
      obtain rfl := Option.some.inj named
      obtain rfl := inside
      simp only [execute, if_neg failing] at ran ⊢
      exact insertAgentTool_view ran
    | insertRun tx owner agentId inputMessages idempotencyKey =>
      obtain rfl := Option.some.inj named
      obtain rfl := inside
      simp only [execute, if_neg failing] at ran ⊢
      exact insertRun_view (fresh rfl) ran
    | findRunByKey tx owner agentId idempotencyKey =>
      obtain rfl := Option.some.inj named
      obtain rfl := inside
      simp only [execute, if_neg failing] at ran ⊢
      exact findRunByKey_view ran
    | _ => cases named
  · obtain rfl := inside
    simp only [execute, if_neg failing, Option.some.injEq] at ran ⊢
    have same : (db.view tenantId (some tx)).commit tx = _ := commit_view
    rw [ran] at same
    exact same

/-! ## Equal views -/

theorem view_congr (rows : db'.store.ofTenant tenantId = db.store.ofTenant tenantId)
    (transaction : ∀ tx, view? = some tx → SameTransaction tx db db') :
    db'.view tenantId view? = db.view tenantId view? := by
  have store : (db'.view tenantId view?).store = (db.view tenantId view?).store := by simp only [view, rows]
  cases view? with
  | none => exact eq_of_parts store rfl rfl rfl rfl
  | some tx =>
    have same := transaction tx rfl
    refine eq_of_parts store ?_ ?_ ?_ ?_
    · simp only [view, Option.bind_some, same.entry]
    · simp only [view, staged, same.agents]
    · simp only [view, staged, same.agentTools]
    · simp only [view, staged, same.runs]

theorem ofTenant_view : (db.view tenantId view?).store.ofTenant tenantId = db.store.ofTenant tenantId := by
  simp [view, Store.ofTenant]

/-- What is seen within a transaction is seen outside when it is over. -/
theorem view_none_congr (same : db.view tenantId view? = db'.view tenantId view?) :
    db.view tenantId none = db'.view tenantId none :=
  have rows := congrArg store same
  eq_of_parts rows rfl rfl rfl rfl

theorem view_begin (pending : db.Open) (new : db.findTransaction c.id = none) :
    { db with transactions := db.transactions ++ [(c.id, (⟨c.now, false⟩ : Transaction))] }.view tenantId
    (some c.id) =
      { db.view tenantId none with transactions := [(c.id, ⟨c.now, false⟩)] } := by
  have nothing {α : Type} {rows : List (Uuid × α)}
      (opened : ∀ tx row, (tx, row) ∈ rows → (db.findTransaction tx).isSome) (tenant : α → Uuid) :
      staged tenant tenantId (some c.id) rows = [] := by
    simp only [staged, List.map_eq_nil_iff, List.filter_eq_nil_iff, mem_own]
    intro row member
    have opened := opened c.id row member
    rw [new] at opened
    cases opened
  refine eq_of_parts rfl ?_ (nothing pending.agents _) (nothing pending.agentTools _) (nothing pending.runs _)
  have entry : (db.transactions ++ [(c.id, (⟨c.now, false⟩ : Transaction))]).lookup c.id = some ⟨c.now, false⟩ := by
    rw [List.lookup_append, ← findTransaction, new]
    simp
  simp [view, findTransaction, entry]

end Database

end AgentPlatform
