import AgentPlatform.Database.Entries
import AgentPlatform.Guarantees.Registry
import AgentPlatform.Ownership.Issued

/-! # Where the rows come from

No row of the database is unaccounted for. Each one was inserted for a request that passed the checks of its
handler, with the values of this request, and if the row belongs to a tenant then the key of the request
authenticates this tenant.
-/

set_option autoImplicit false

namespace AgentPlatform

open Interleaving Relational Database Scenario

variable {lib : Libraries} {config : Config} {s t : Store} {events : List (Event (platform lib config))}
  {first pool next : Pool (platform lib config)} {request : Request} {headers : HeaderMap} {entry : Entry} {i : ℕ}

/-! ## Inserted rows -/

/-- The process received this request, and its thread `i` handles it. -/
def Process.Receives (process : Process lib) (i : ℕ) (request : Request) : Prop :=
  ∃ before after middle, process.events = before ++ .arrived (.http request) :: after ∧
    Path (booted lib process.config process.found) before middle ∧ middle.threads.length = i

/-- Thread `i` of the process inserted this row with this statement. -/
def Process.Inserts (process : Process lib) (i : ℕ) (statement : Statement) (entry : Entry) : Prop :=
  ∃ c row, .performed i c ⟨.sql statement, .ok row⟩ ∈ process.events ∧ statement.entry? c.id = some entry

/-- Thread `i` of the process inserted this row in this transaction, if any. -/
def Process.InsertsIn (process : Process lib) (i : ℕ) (transaction : Option Uuid) (entry : Entry) : Prop :=
  ∃ statement, process.Inserts i statement entry ∧ statement.transaction? = transaction

/-- The request passed the checks of its handler and asks for this row. A binding comes with the agent of the request,
which is among the rows that were inserted together with it. -/
def Request.Accounts (request : Request) (together : Entry → Prop) : Entry → Prop
  | .tenant _ name => ∃ body, request = .createTenant body ∧ body.Valid ∧ name = trim body.name
  | .apiKey tenantId _ _ => request = .createApiKey tenantId
  | .tool _ _ name inputSchema mockHandler => ∃ headers body, request = .createTool headers body ∧ body.Valid ∧
      name = trim body.name ∧ inputSchema = body.inputSchema ∧ mockHandler = body.mockHandler
  | .agent _ _ name systemPrompt maxIterations => ∃ headers body, request = .createAgent headers body ∧ body.Valid ∧
      name = body.name.map trim ∧ systemPrompt = trim body.systemPrompt ∧ maxIterations = body.maxIterations
  | .agentTool tenantId agentId toolId => ∃ headers body, request = .createAgent headers body ∧ body.Valid ∧
      toolId ∈ body.toolIds ∧
      together (.agent agentId tenantId (body.name.map trim) (trim body.systemPrompt) body.maxIterations)
  | .run _ _ agentId inputMessages idempotencyKey =>
      ∃ headers body, request = .startRun headers agentId body ∧ body.Valid ∧
      inputMessages = ChatMessage.listToValue body.messages ∧ idempotencyKey = Http.idempotencyKey headers

/-- A row that a step brings in is the one that its statement inserts. -/
theorem entry_of_step {event : Event (platform lib config)} (step : Step pool event next)
    (absent : entry ∉ pool.shared.db.entries) (present : entry ∈ next.shared.db.entries) :
    ∃ i c statement row, event = .performed i c ⟨.sql statement, .ok row⟩ ∧
      statement.entry? c.id = some entry := by
  rcases database_of_step step with same | ⟨tx, rolled⟩ | ⟨i, c, statement, answer, happened, executes⟩
  · rw [same] at present
    exact absurd present absent
  · rw [rolled] at present
    exact absurd (entries_rollback present) absent
  · rcases entries_executed (executed executes) present with old | new
    · exact absurd old absent
    · obtain ⟨inserts, row, rfl⟩ := new
      exact ⟨i, c, statement, row, happened, inserts⟩

/-! ## The requests behind them -/

/-- Runs are inserted for an agent that was found under this id. -/
def OfFound (wanted : Uuid) (past : List (Performed signature)) (op : Op) : Prop :=
  ∀ tx tenantId agentId inputMessages idempotencyKey, op = .sql
    (.insertRun tx tenantId agentId inputMessages idempotencyKey) →
    ∃ row : AgentRow, ⟨.sql (.getAgent tenantId wanted), .ok (some row)⟩ ∈ past ∧ row.id = agentId

theorem along_ofFound {wanted : Uuid} {body : StartRunRequest} :
    ((Request.startRun headers wanted body).handler lib).Along (OfFound wanted) (fun _ _ => True) [] := by
  have looks : (authenticate lib headers).Uses fun op : Op =>
      ∃ keyPrefix, op = .sql (.findActiveApiKeyByPrefix keyPrefix) :=
    uses_authenticate fun keyPrefix => ⟨keyPrefix, rfl⟩
  refine Program.Along.bind _ (Program.Along.of_uses looks ?_) ?_ fun _ _ _ => True.intro
  · rintro more op ⟨keyPrefix, rfl⟩ _ _ _ _ _ ⟨⟩
  rintro past tenant _
  refine ⟨by rintro _ _ _ _ _ ⟨⟩, fun answer => ?_⟩
  rcases answer with fault | _ | row
  · trivial
  · trivial
  have found : (⟨.sql (.getAgent tenant.tenantId wanted), .ok (some row)⟩ : Performed signature) ∈
      past ++ [⟨.sql (.getAgent tenant.tenantId wanted), .ok (some row)⟩] :=
        List.mem_append_right _ (List.mem_singleton_self _)
  generalize past ++ [_] = past at found ⊢
  change Program.Along _ _ (if _ then _ else _) _
  split
  · trivial
  have created (messages : Value) (key : Option String) :
      (Db.createOrGetRun lib tenant.tenantId row.id messages key).Along (OfFound wanted)
      (fun later _ => ∃ more, later = past ++ more) past := by
    refine (Program.Along.of_uses (uses_createOrGetRun ..) ?_).mono fun later _ ⟨more, same, _⟩ => ⟨more, same⟩
    rintro more op inserts tx owner agent _ _ rfl
    obtain ⟨rfl, rfl, _⟩ := inserts
    exact ⟨row, List.mem_append_left _ found, rfl⟩
  refine Program.Along.bind _ (created _ _) ?_ fun _ _ _ => True.intro
  rintro later ⟨run, created⟩ ⟨more, rfl⟩
  have announces : (Http.startCreatedRun tenant.tenantId run.id).Along (OfFound wanted)
      (fun _ _ => True) (past ++ more) := by
    refine (Program.Along.of_uses uses_startCreatedRun ?_).mono fun _ _ _ => True.intro
    rintro rest op starts _ _ _ _ _ rfl
    exact starts.elim
  dsimp only
  split
  · exact Program.Along.bind _ announces (fun _ _ _ => True.intro) fun _ _ _ => True.intro
  · trivial

/-- Bindings are inserted for an agent that was inserted before, in the same transaction. -/
def OfCreated (past : List (Performed signature)) (op : Op) : Prop :=
  ∀ tx tenantId agentId toolId, op = .sql (.insertAgentTool tx tenantId agentId toolId) →
    ∃ (name : Option String) (systemPrompt : String) (maxIterations : Int) (row : AgentRow),
      ⟨.sql (.insertAgent tx tenantId name systemPrompt maxIterations), .ok row⟩ ∈ past ∧ row.id = agentId

theorem along_bindTools_created {tx tenantId : Uuid} {name : Option String} {systemPrompt : String}
    {maxIterations : Int} {row : AgentRow} {past : List (Performed signature)}
    (inserted : ⟨.sql (.insertAgent tx tenantId name systemPrompt maxIterations), .ok row⟩ ∈ past)
    (toolIds : List Uuid) : (Db.bindTools tx tenantId row.id toolIds).Along OfCreated (fun _ _ => True) past := by
  let mine (op : Op) : Prop := ∀ tx' owner agentId toolId, op = .sql (.insertAgentTool tx' owner agentId toolId) →
    tx' = tx ∧ owner = tenantId ∧ agentId = row.id
  have uses : (Db.bindTools tx tenantId row.id toolIds).Uses mine := by
    induction toolIds with
    | nil => trivial
    | cons toolId rest ih =>
      refine Program.uses_bind (Program.uses_bind (uses_query ?_) fun present => ?_) fun _ => ih
      · rintro _ _ _ _ ⟨⟩
      · refine Program.uses_ite (uses_query ?_) True.intro
        rintro _ _ _ _ ⟨⟩
        exact ⟨rfl, rfl, rfl⟩
  refine (Program.Along.of_uses uses fun more op bound tx' owner agentId toolId same =>
    ?_).mono fun _ _ _ => True.intro
  obtain ⟨rfl, rfl, rfl⟩ := bound tx' owner agentId toolId same
  exact ⟨name, systemPrompt, maxIterations, row, List.mem_append_left _ inserted, rfl⟩

theorem along_ofCreated {body : CreateAgentRequest} :
    ((Request.createAgent headers body).handler lib).Along OfCreated (fun _ _ => True) [] := by
  have looks : (authenticate lib headers).Uses fun op : Op =>
      ∃ keyPrefix, op = .sql (.findActiveApiKeyByPrefix keyPrefix) :=
    uses_authenticate fun keyPrefix => ⟨keyPrefix, rfl⟩
  refine Program.Along.bind (fun _ _ => True) ((Program.Along.of_uses looks ?_).mono fun _ _ _ => True.intro) ?_
    fun _ _ _ => True.intro
  · rintro more op ⟨keyPrefix, rfl⟩ _ _ _ _ ⟨⟩
  rintro past tenant _
  change Program.Along _ _ (if _ then _ else _) _
  split
  · trivial
  have created (name : Option String) (systemPrompt : String) (maxIterations : Int) :
      (Db.createAgent tenant.tenantId name systemPrompt body.toolIds maxIterations).Along OfCreated
          (fun _ _ => True) past := by
    refine Program.Along.bind (fun _ _ => True) ⟨by rintro _ _ _ _ ⟨⟩, by rintro (fault | tx) <;> trivial⟩ ?_
      fun _ _ _ => True.intro
    rintro past tx _
    refine Program.Along.handle (fun _ _ => True) ⟨by rintro _ _ _ _ ⟨⟩, ?_⟩ ?_
    · rintro ((constraint | _) | row)
      · cases constraint <;> trivial
      all_goals try trivial
      change Program.Along _ _ (do
        Db.bindTools tx tenant.tenantId row.id body.toolIds
        query (.commit tx)
        return agentFromRow row) _
      refine Program.Along.bind _
        (along_bindTools_created (List.mem_append_right _ (List.mem_singleton_self _)) body.toolIds)
        (fun past _ _ => ⟨by rintro _ _ _ _ ⟨⟩, ?_⟩) fun _ _ _ => True.intro
      rintro (fault | done) <;> trivial
    · rintro past (fault | agent) _
      · exact ⟨by rintro _ _ _ _ ⟨⟩, fun _ => True.intro⟩
      · trivial
  refine Program.Along.bind _ (created ..) (fun past _ _ => ⟨by rintro _ _ _ _ ⟨⟩, ?_⟩) fun _ _ _ => True.intro
  rintro (fault | toolIds) <;> trivial

/-- Besides looking up its key, a request only acts for the tenant of a key that it has verified. -/
def Mediated (lib : Libraries) (headers : HeaderMap) (past : List (Performed signature)) (op : Op) : Prop :=
  (∃ keyPrefix, op = .sql (.findActiveApiKeyByPrefix keyPrefix)) ∨ ∃ tenantId, op.OnBehalf tenantId ∧
    Verified lib headers tenantId past

theorem along_mediated (sent : request.headers? = some headers) :
    (request.handler lib).Along (Mediated lib headers) (fun _ _ => True) [] := by
  rw [Request.handler_eq sent]
  have looks : (authenticate lib headers).Uses fun op : Op =>
      ∃ keyPrefix, op = .sql (.findActiveApiKeyByPrefix keyPrefix) :=
    uses_authenticate fun keyPrefix => ⟨keyPrefix, rfl⟩
  have allowed : (authenticate lib headers).Along (Mediated lib headers) (fun _ _ => True) [] :=
    (Program.Along.of_uses looks fun more op looking => .inl looking).mono fun _ _ _ => True.intro
  refine Program.Along.bind _ ((along_authenticate.and allowed).allow fun past op both =>
    both.2) ?_ fun _ _ _ => True.intro
  rintro past tenant ⟨verified, _⟩
  refine (Program.Along.of_uses (uses_onBehalf sent tenant) ?_).mono fun _ _ _ => True.intro
  exact fun more op handled => .inr ⟨tenant.tenantId, handled.1, (verified tenant rfl).append more⟩

/-- What is known of a request when it inserts a row. -/
theorem accounts_of_issued {statement : Statement} {id : Uuid} {together : Entry → Prop}
    (issued : request.Issues (.sql statement)) (inserts : statement.entry? id = some entry)
    (found : ∀ tx tenantId agentId inputMessages idempotencyKey headers wanted body,
      statement = .insertRun tx tenantId agentId inputMessages idempotencyKey →
        request = .startRun headers wanted body → agentId = wanted)
    (created : ∀ tx tenantId agentId toolId headers body, statement = .insertAgentTool tx tenantId agentId toolId →
      request = .createAgent headers body →
      together (.agent agentId tenantId (body.name.map trim) (trim body.systemPrompt) body.maxIterations)) :
    request.Accounts together entry := by
  cases statement with
  | createTenant name | createApiKey tenantId keyPrefix keyHash | createTool tenantId name inputSchema mockHandler
  | insertAgent tx tenantId name systemPrompt maxIterations =>
    cases inserts
    exact issued
  | insertAgentTool tx tenantId agentId toolId =>
    cases inserts
    obtain ⟨headers, body, same, valid, wanted⟩ := issued
    exact ⟨headers, body, same, valid, wanted, created _ _ _ _ _ _ rfl same⟩
  | insertRun tx tenantId agentId inputMessages idempotencyKey =>
    cases inserts
    obtain ⟨headers, wanted, body, same, checked⟩ := issued
    obtain rfl := found _ _ _ _ _ _ _ _ rfl same
    exact ⟨headers, body, same, checked⟩
  | _ => cases inserts

/-- The rows of a tenant are inserted for this tenant, by requests that authenticate. -/
theorem owner_of_issued {statement : Statement} {id tenantId : Uuid} (issued : request.Issues (.sql statement))
    (inserts : statement.entry? id = some entry) (owner : entry.owner? = some tenantId) :
    (∃ headers, request.headers? = some headers) ∧ ¬ (∃ keyPrefix, statement = .findActiveApiKeyByPrefix keyPrefix) ∧
      ∀ acting, (Op.sql statement).OnBehalf acting → acting = tenantId := by
  cases statement with
  | createTool | insertAgent | insertAgentTool | insertRun =>
    cases inserts
    cases owner
    refine ⟨?_, by rintro ⟨_, ⟨⟩⟩, fun acting named => (Option.some.inj named).symm⟩
    first
      | (obtain ⟨headers, body, rfl, _⟩ := issued; exact ⟨headers, rfl⟩)
      | (obtain ⟨headers, wanted, body, rfl, _⟩ := issued; exact ⟨headers, rfl⟩)
  | createTenant | createApiKey =>
    cases inserts
    cases owner
  | _ => cases inserts

theorem id_of_insertAgent {c : Choice} {db db' : Database} {tx tenantId : Uuid} {name : Option String}
    {systemPrompt : String} {maxIterations : Int} {row : AgentRow}
    (ran : Executed c db (.insertAgent tx tenantId name systemPrompt maxIterations) (.ok row) db') :
    row.id = c.id := by
  cases ran with
  | insertAgent found alive same fits new => rw [same]
  | select healthy answered => cases answered

/-- A successful `INSERT` of an agent by a request that asked for this agent. -/
theorem insertsIn_agent (path : Path (booted lib config s) events pool) {body : CreateAgentRequest}
    {tx tenantId : Uuid} {name : Option String} {systemPrompt : String} {maxIterations : Int} {row : AgentRow}
    (uses : ∀ what ∈ doneBy i events, (Request.createAgent headers body).Issues what.op)
    (done : ⟨.sql (.insertAgent tx tenantId name systemPrompt maxIterations), .ok row⟩ ∈ doneBy i events) :
    (⟨config, s, events, pool, path⟩ : Process lib).InsertsIn i (some tx)
      (.agent row.id tenantId (body.name.map trim) (trim body.systemPrompt) body.maxIterations) := by
  obtain ⟨_, _, ⟨⟩, _, rfl, rfl, rfl⟩ := uses _ done
  obtain ⟨c, performed⟩ := mem_doneBy.mp done
  obtain ⟨before, next, step⟩ := path.step_of_mem performed
  refine ⟨.insertAgent tx tenantId _ _ _, ⟨c, row, performed, ?_⟩, rfl⟩
  rw [id_of_insertAgent (executed (execute_of_step step))]
  rfl

/-- A row that a process has added was inserted for a request that it received. -/
theorem accounted_of_booted (left : Left lib s) (path : Path (booted lib config s) events pool)
    (present : entry ∈ pool.shared.db.entries) : entry ∈ s.entries ∨ ∃ i request statement,
      (⟨config, s, events, pool, path⟩ : Process lib).Receives i request ∧
      (⟨config, s, events, pool, path⟩ : Process lib).Inserts i statement entry ∧
      request.Accounts ((⟨config, s, events, pool, path⟩ : Process lib).InsertsIn i statement.transaction?) entry ∧
      ∀ tenantId, entry.owner? = some tenantId →
        ∃ headers, request.headers? = some headers ∧ pool.shared.db.store.authenticates lib headers tenantId := by
  rcases path.became (fun pool => entry ∈ pool.shared.db.entries) present with
    old | ⟨before, event, after, middle, next, rfl, earlier, step, later, absent, now⟩
  · left
    rwa [show (booted lib config s).shared.db = { store := s } from rfl, entries_committed] at old
  right
  obtain ⟨i, c, statement, row, rfl, inserts⟩ := entry_of_step step absent now
  obtain ⟨⟨task, owned, program⟩, there, done, follows⟩ :=
    path.thread_of_performed rfl (List.mem_append_right _ (List.mem_cons_self ..))
  cases task with
  | executeRun tenantId runId =>
    rcases (follows.uses uses_task).1 _ done with inside | ⟨semaphore, other⟩
    · cases statement <;> first | exact inside.elim | cases inserts
    · cases other
  | http request =>
    have uses := (follows.uses (uses_issued request)).1
    obtain ⟨first, rest, arrived, arrival, reached, _, length⟩ := arrival_of_booted path there rfl
    refine ⟨i, request, statement, ⟨first, rest, arrived, arrival, reached, length⟩,
      ⟨c, row, List.mem_append_right _ (List.mem_cons_self ..), inserts⟩,
      accounts_of_issued (uses _ done) inserts ?_ ?_, fun tenantId owner => ?_⟩
    · rintro tx tenantId agentId inputMessages idempotencyKey headers wanted body rfl rfl
      obtain ⟨row, read, rfl⟩ :=
        path.along_performed rfl there along_ofFound tx tenantId agentId inputMessages idempotencyKey rfl
      obtain ⟨_, _, _, _, _, _, selected⟩ := selected_of_mem earlier read fun _ _ => rfl
      exact (Store.findAgent_some (Option.some.inj selected)).2.2
    · rintro tx tenantId agentId toolId headers body rfl rfl
      obtain ⟨name, systemPrompt, maxIterations, agent, inserted, rfl⟩ :=
        path.along_performed rfl there along_ofCreated tx tenantId agentId toolId rfl
      exact insertsIn_agent path uses (doneBy_subset i _ _ inserted)
    · obtain ⟨⟨headers, sent⟩, other, named⟩ := owner_of_issued (uses _ done) inserts owner
      rcases path.along_performed rfl there
        (along_mediated sent) with ⟨keyPrefix, looks⟩ | ⟨acting, onBehalf, verified⟩
      · exact absurd ⟨keyPrefix, Op.sql.inj looks⟩ other
      · obtain rfl := named acting onBehalf
        have authenticated := authenticates_of_booted verified left earlier
        exact ⟨headers, sent,
          lasting_authenticates.of_booted left earlier ((Path.single step).append later) authenticated⟩

/-! ## All processes -/

/-- Every row in the database, however many processes have served and wherever they were stopped, was inserted for a
request that one of them received, by the thread that handles it: the request passed the checks of its handler, the
row has the values it asked for, and the key of the request authenticates the tenant of the row. -/
theorem every_row_accounted {past : List (Process lib)} (serves : Serves lib {} past s)
    (present : entry ∈ s.entries) :
    ∃ process ∈ past, ∃ i request statement, process.Receives i request ∧ process.Inserts i statement entry ∧
      request.Accounts (process.InsertsIn i statement.transaction?) entry ∧ ∀ tenantId, entry.owner? = some tenantId →
        ∃ headers, request.headers? = some headers ∧ s.authenticates lib headers tenantId := by
  induction serves with
  | nothing => cases present
  | @stopped config past t events pool earlier path ih =>
    have left : Left lib t := ⟨past, earlier⟩
    have there : entry ∈ pool.shared.db.entries := mem_entries.mpr (.inl present)
    rcases accounted_of_booted left path there with old | ⟨i, request, statement, accounted⟩
    · obtain ⟨process, member, i, request, statement, received, inserted, accounts, authentic⟩ := ih old
      refine ⟨process, List.mem_append_left _ member, i, request, statement, received, inserted, accounts, ?_⟩
      intro tenantId owner
      obtain ⟨headers, sent, known⟩ := authentic tenantId owner
      exact ⟨headers, sent, lasting_authenticates.of_booted left (.nil _) path known⟩
    · exact ⟨_, List.mem_append_right _ (List.mem_singleton_self _), i, request, statement, accounted⟩

/-- The binding of the served agent was inserted, together with the agent, for the request that asked for both. -/
theorem every_row_accounted_service : ∃ (past : List (Process permissive)) (s : Store), Serves permissive {} past s ∧
    .agentTool 1 22 11 ∈ s.entries ∧ ∃ process ∈ past, ∃ i request statement, process.Receives i request ∧
      process.Inserts i statement (.agentTool 1 22 11) ∧
      request.Accounts (process.InsertsIn i statement.transaction?) (.agentTool 1 22 11) ∧
      ∃ headers, request.headers? = some headers ∧ s.authenticates permissive headers 1 := by
  obtain ⟨events, stopped, path, checked⟩ := (started permissive ⟨1, 1⟩).exists_path service
    (fun _ pool => pool.shared.db.store.agentTools.any fun row => row.tenantId == 1 &&
      row.agentId == 22 && row.toolId == 11)
    (by decide +kernel)
  obtain ⟨row, present, columns⟩ := List.any_eq_true.mp checked
  simp only [Bool.and_eq_true, beq_iff_eq] at columns
  obtain ⟨⟨owner, agent⟩, tool⟩ := columns
  rw [started_eq_booted] at path
  have serves := (@Serves.nothing permissive {}).stopped path
  have member : .agentTool 1 22 11 ∈ stopped.shared.db.store.entries :=
    List.mem_append_left _
      (List.mem_append_right _ (List.mem_map.mpr ⟨row, present, by rw [← owner, ← agent, ← tool]; rfl⟩))
  obtain ⟨process, served, i, request, statement, received, inserted, accounts, authentic⟩ :=
    every_row_accounted serves member
  exact ⟨_, _, serves, member, process, served, i, request, statement, received, inserted, accounts, authentic 1 rfl⟩

end AgentPlatform
