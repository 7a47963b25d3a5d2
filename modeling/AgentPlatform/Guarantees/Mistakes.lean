import AgentPlatform.Guarantees.Agents
import AgentPlatform.Guarantees.Keys
import AgentPlatform.Guarantees.Log

/-! # Mistakes of the caller

With a healthy database an internal error has one of three reasons, all of them constraints that a
handler neither checks nor maps: a key for a tenant that does not exist, a number of iterations out
of range, and a tool that is requested twice. Texts with a NUL character, which a statement refuses,
are among the failing statements.
-/

set_option autoImplicit false

namespace AgentPlatform

open Interleaving Relational Database Scenario

variable {lib : Libraries} {config : Config}

/-- Hashing succeeds, and its result parses. -/
structure Libraries.Hashes (lib : Libraries) : Prop where
  total : ∀ salt password, (lib.hashPassword salt password).isSome = true
  parses : ∀ salt password hash, lib.hashPassword salt password = some hash → lib.parsesHash hash = true

def IsInternal (result : Except AppError Response) : Prop :=
  ∃ fault, result = .error fault ∧ fault.errorCode = "internal_error"

/-- The operation fails for no reason but a constraint, with new generated values, and does not replay a request. -/
structure Healthy (op : Op) (c : Choice) (w : World) : Prop where
  succeeds : c.fail = false
  fresh : ¬ w.db.UsesId c.id
  unused : ∀ tenantId keyPrefix keyHash, op = .sql (.createApiKey tenantId keyPrefix keyHash) →
    ∀ key ∈ w.db.store.apiKeys, key.keyPrefix ≠ keyPrefix
  unclaimed : ∀ tx tenantId agentId messages key, op = .sql (.insertRun tx tenantId agentId messages (some key)) →
    ∀ run ∈ w.db.store.runs, run.scope ≠ some (tenantId, agentId, key)

/-- The request violates a constraint that nobody has checked before. -/
def Request.Unfit (lib : Libraries) (s : Store) : Request → Prop
  | .createApiKey tenantId => ¬ ∃ tenant ∈ s.tenants, tenant.id = tenantId
  | .createAgent headers body => ∃ tenantId, s.authenticates lib headers tenantId ∧
      (trim body.systemPrompt).isEmpty = false ∧ (¬ (0 < body.maxIterations ∧ body.maxIterations ≤ 50) ∨
        ¬ TakesName s.agents tenantId (body.name.map trim) ∧
          ∃ done toolId rest, body.toolIds = done ++ toolId :: rest ∧ toolId ∈ done ∧
            ∀ earlier ∈ done, ActiveTool s tenantId earlier)
  | _ => False

/-- The request violates no such constraint, whatever happens to the other rows. -/
def Request.Sensible (s : Store) : Request → Prop
  | .createApiKey tenantId => ∃ tenant ∈ s.tenants, tenant.id = tenantId
  | .createAgent _ body => (0 < body.maxIterations ∧ body.maxIterations ≤ 50) ∧ body.toolIds.Nodup
  | _ => True

/-- Two stores agree on what decides whether this agent can be created: who the caller is, whether its name is taken
and which of its tools are active. -/
structure Store.AlikeFor (lib : Libraries) (headers : HeaderMap)
    (body : CreateAgentRequest) (s t : Store) : Prop where
  authenticates : ∀ tenantId, t.authenticates lib headers tenantId ↔ s.authenticates lib headers tenantId
  names : ∀ tenantId, s.authenticates lib headers tenantId →
    (TakesName t.agents tenantId (body.name.map trim) ↔ TakesName s.agents tenantId (body.name.map trim))
  tools : ∀ tenantId, s.authenticates lib headers tenantId → ∀ toolId ∈ body.toolIds,
    (ActiveTool t tenantId toolId ↔ ActiveTool s tenantId toolId)

/-- Two stores agree on what decides whether the request is fit. -/
def Store.Alike (lib : Libraries) (request : Request) (s t : Store) : Prop :=
  match request with
  | .createApiKey tenantId => (∃ tenant ∈ t.tenants, tenant.id = tenantId) ↔
      ∃ tenant ∈ s.tenants, tenant.id = tenantId
  | .createAgent headers body => s.AlikeFor lib headers body t
  | _ => True

theorem Store.Alike.refl (request : Request) (s : Store) : s.Alike lib request s := by
  cases request with
  | createApiKey tenantId => exact .rfl
  | createAgent headers body => exact ⟨fun _ => .rfl, fun _ _ => .rfl, fun _ _ _ _ => .rfl⟩
  | _ => trivial

theorem Request.Sensible.evolve {s t : Store} {request : Request} (sensible : request.Sensible s)
    (evolves : s.Evolves t) : request.Sensible t := by
  cases request with
  | createApiKey tenantId =>
    obtain ⟨tenant, present, same⟩ := sensible
    exact ⟨tenant, evolves.tenants.subset present, same⟩
  | _ => exact sensible

/-! ## Handlers on a healthy database -/

/-- What is known of the operations of a thread on a healthy database. -/
def Orderly (op : Op) (c : Choice) (w : World) : Prop :=
  Healthy op c w ∧
    ∀ tenantId runId eventType payload error db, op = .sql (.appendEvent tenantId runId eventType payload) →
    w.db.execute c (.appendEvent tenantId runId eventType payload) ≠ some (.error error, db)

section Rules

variable {Q : Store → Prop} {P : World → Prop} {α : Type} {statement : Statement} {w : World}
  {past : List (Performed signature)}

/-- In these surroundings the program returns a result of this kind. -/
abbrev Yields (config : Config) (lib : Libraries) (Q : Store → Prop) (kind : Except AppError α → Prop)
    (program : Act α) (w : World) (past : List (Performed signature)) : Prop :=
  (among lib config Q Orderly).Ensures (fun _ _ _ _ => True) (fun result _ _ => kind result) program w past

variable {kind : Except AppError α → Prop}

/-- The rule for a statement that succeeds. -/
theorem yields_query {rest : statement.Row → Act α} (now : P w)
    (stable : ∀ s t, (among lib config Q Orderly).rely (.sql statement) s t → P s → P t)
    (rule : ∀ t c answer db, P t → Valid lib t → Orderly (.sql statement) c t →
      t.db.execute c statement = some (answer, db) → ∃ row, answer = .ok row ∧
        Yields config lib Q kind (rest row) { t with db } (past ++ [⟨.sql statement, .ok row⟩])) :
    Yields config lib Q kind (query statement >>= rest) w past := by
  apply ensures_sql now stable
  intro t c answer db still sound granted ran
  obtain ⟨row, rfl, yields⟩ := rule t c answer db still sound granted ran
  exact ⟨True.intro, yields⟩

theorem yields_appendEvent {tenantId runId : Uuid} {eventType : EventType} {payload : Value} :
    Yields config lib Q (· = .ok ()) (Trace.appendEvent tenantId runId eventType payload) w past := by
  refine ensures_sql True.intro (fun _ _ _ _ => True.intro) fun t c answer db _ _ granted ran => ⟨True.intro, ?_⟩
  cases answer with
  | error error => exact absurd ran (granted.2 tenantId runId eventType payload error db rfl)
  | ok done => rfl

/-- A healthy statement does not fail for reasons of its own. -/
theorem Orderly.on {op : Op} {c : Choice} {w : World} (orderly : Orderly op c w) : ¬ c.fail = true := by
  rw [orderly.1.succeeds]
  decide

theorem yields_markRunFailed {tenantId runId : Uuid} {errorReason : String} :
    Yields config lib Q (· = .ok ()) (Db.markRunFailed tenantId runId errorReason) w past := by
  apply yields_query True.intro (fun _ _ _ _ => True.intro)
  intro t c answer db _ _ orderly ran
  simp only [execute, if_neg orderly.on, markRunFailed, updateRuns] at ran
  cases ran
  exact ⟨_, rfl, rfl⟩

theorem yields_failRunBeforeStart {tenantId runId : Uuid} {errorReason : String} {payload : Value} :
    Yields config lib Q (· = .ok ()) (failRunBeforeStart tenantId runId errorReason payload) w past := by
  refine Surroundings.Ensures.bind yields_markRunFailed ?_ (by rintro _ _ _ ⟨⟩)
  rintro _ _ _ ⟨⟩
  refine Surroundings.Ensures.bind yields_appendEvent ?_ (by rintro _ _ _ ⟨⟩)
  rintro _ _ _ ⟨⟩
  exact yields_appendEvent

/-- Starting a run fails for lack of capacity only. -/
inductive Allotted : Except AppError Unit → Prop
  | accepted : Allotted (.ok ())
  | full : Allotted (.error .schedulerCapacityExceeded)
  | crowded : Allotted (.error .tenantConcurrencyLimitExceeded)

/-- An operation other than a statement always succeeds. -/
theorem yields_act {op : Op} {rest : op.Answer → Act α}
    (rule : ∀ t answer later, Yields config lib Q kind (rest answer) t later) :
    Yields config lib Q kind (act op >>= rest) w past :=
  Surroundings.Ensures.call True.intro (fun _ _ _ _ => True.intro) fun _ _ _ _ _ _ _ _ => ⟨True.intro, rule _ _ _⟩

/-- The rule for a clean-up that keeps the result. -/
theorem yields_onError {program : Act α} {cleanup : Act Unit} (first : Yields config lib Q kind program w past)
    (cleans : ∀ fault t later, kind (.error fault) →
      Yields config lib Q (fun _ => kind (.error fault)) cleanup t later) :
    Yields config lib Q kind (program.onError cleanup) w past :=
  Surroundings.Ensures.onError first (fun _ _ _ done => done) fun fault t later failed => cleans fault t later failed

theorem yields_scheduleRun {tenantId runId : Uuid} :
    Yields config lib Q Allotted (scheduleRun tenantId runId) w past := by
  apply yields_act
  intro t acquired later
  have refuses {fault : AppError} {reason : String} {payload : Value} (refusal : Allotted (.error fault)) {t : World}
      {later : List (Performed signature)} :
      Yields config lib Q Allotted (do failRunBeforeStart tenantId runId reason payload; throw fault) t later := by
    refine Surroundings.Ensures.bind yields_failRunBeforeStart ?_ (by rintro _ _ _ ⟨⟩)
    rintro _ _ _ ⟨⟩
    exact refusal
  split
  · refine yields_onError ?_ fun fault _ _ allotted => ?_
    · refine yields_act fun t semaphore later => yields_act fun t acquired later => ?_
      split
      · exact Surroundings.Ensures.call True.intro (fun _ _ _ _ => True.intro) fun _ _ _ _ _ _ _ _ =>
          ⟨True.intro, .accepted⟩
      · exact refuses .crowded
    · exact Surroundings.Ensures.call True.intro (fun _ _ _ _ => True.intro) fun _ _ _ _ _ _ _ _ =>
        ⟨True.intro, allotted⟩
  · exact refuses .full

theorem yields_startCreatedRun {tenantId runId : Uuid} :
    Yields config lib Q Allotted (Http.startCreatedRun tenantId runId) w past := by
  refine Surroundings.Ensures.bind yields_appendEvent ?_ (by rintro _ _ _ ⟨⟩)
  rintro _ _ _ ⟨⟩
  exact yields_scheduleRun

theorem yields_createOrGetRun {headers : HeaderMap} {tenantId agentId : Uuid} {messages : Value} {key : Option String}
    (array : messages.isArray = true) (known : Q w.db.store)
    (admitted : w.db.store.authenticates lib headers tenantId)
    (agent : ∃ agent ∈ w.db.store.agents, agent.tenantId = tenantId ∧ agent.id = agentId) :
    Yields config lib Q (fun result => ∃ run, result = .ok (run, true))
    (Db.createOrGetRun lib tenantId agentId messages key) w past := by
  unfold Db.createOrGetRun
  refine yields_query (P := fun w => Q w.db.store ∧ w.db.store.authenticates lib headers tenantId ∧
    ∃ agent ∈ w.db.store.agents, agent.tenantId = tenantId ∧ agent.id = agentId) ⟨known, admitted, agent⟩ ?_ ?_
  · rintro s t others ⟨known, admitted, agent, present, same⟩
    exact ⟨others.2.1 known, lasting_authenticates others.1 admitted, agent, others.1.agents.subset present, same⟩
  rintro t c answer db ⟨known, admitted, agent⟩ sound orderly ran
  cases answer with
  | error error => exact absurd (not_begun ran).1 orderly.on
  | ok tx =>
    obtain ⟨new, rfl, rfl⟩ := begun ran
    have staging := Staging.begin c.now known admitted sound.wellFormed.pending new
    refine ⟨_, rfl, yields_onError ?_ (by rintro _ _ _ ⟨_, ⟨⟩⟩)⟩
    refine ensures_sql (P := fun w => Staging Q lib headers tenantId c.id c.now [] [] w ∧
      ∃ agent ∈ w.db.store.agents, agent.tenantId = tenantId ∧ agent.id = agentId) ⟨staging, agent⟩ ?_ ?_
    · rintro s t others ⟨staging, agent, present, same⟩
      exact ⟨staging.stable (statement_names rfl) others, agent, others.1.agents.subset present, same⟩
    rintro u c' answer db ⟨staging, agent⟩ _ orderly ran
    obtain ⟨row, rfl, rfl⟩ := insertRun_answer orderly.1.succeeds staging.opened rfl array staging.runs
      (fun ⟨run, present, same⟩ => orderly.1.fresh
        (.inr (.inr (.inr (.inr (.inl ⟨run, List.mem_append_left _ present, same⟩))))))
      (by rintro key rfl; exact orderly.1.unclaimed _ _ _ _ key rfl) agent ran
    refine ⟨True.intro, ?_⟩
    refine yields_query (P := fun w => w.db.findTransaction c.id = some ⟨c.now, false⟩) staging.opened
      (fun s t others opened => (others.2.2 _ (statement_names rfl)).entry.trans opened)
      fun v c'' answer db opened _ orderly ran => ?_
    obtain ⟨rfl, rfl⟩ := commit_answer orderly.1.succeeds opened rfl ran
    exact ⟨_, rfl, _, rfl⟩

end Rules

/-! ## The handlers -/

/-- All stored hashes parse. -/
def Store.Readable (lib : Libraries) (s : Store) : Prop := ∀ key ∈ s.apiKeys, lib.parsesHash key.keyHash = true

section Handlers

variable {Q : Store → Prop} {w : World} {past : List (Performed signature)} {headers : HeaderMap}

theorem not_internal_ok {response : Response} : ¬ IsInternal (.ok response) := by
  rintro ⟨_, ⟨⟩, _⟩

theorem not_internal_error {fault : AppError} (other : fault.errorCode ≠ "internal_error") :
    ¬ IsInternal (.error fault) := by
  rintro ⟨_, ⟨⟩, same⟩
  exact other same

/-- A request that is not authenticated is told so. -/
theorem Unauthenticated.invalid {fault : AppError}
    (refused : Unauthenticated (among lib config Q Orderly) headers w fault) (readable : w.db.store.Readable lib) :
    fault = .invalidApiKey := by
  cases refused with
  | unknown nobody => rfl
  | unreadable parsed found bad =>
    rw [readable _ (List.mem_of_find?_eq_some found)] at bad
    cases bad
  | failing granted failing => exact absurd failing granted.on

theorem yields_authenticate {rest : TenantContext → Act Response} (readable : ∀ s, Q s → s.Readable lib)
    (known : Q w.db.store) (rule : ∀ t later tenantId, Q t.db.store → t.db.store.authenticates lib headers tenantId →
      Yields config lib Q (¬ IsInternal ·) (rest ⟨tenantId⟩) t later) :
    Yields config lib Q (¬ IsInternal ·) (authenticate lib headers >>= rest) w past := by
  refine ensures_authenticate (P := fun w => Q w.db.store) known (fun _ s t others now => others.2.1 now)
    (fun _ _ _ => True.intro) (fun t later tenant known admitted _ => rule t later tenant.tenantId known admitted) ?_
  intro t later fault known refused _
  rw [refused.invalid (readable _ known)]
  exact not_internal_error (by decide)

theorem yields_startRun {tenantId agentId : Uuid} {body : StartRunRequest} (known : Q w.db.store)
    (admitted : w.db.store.authenticates lib headers tenantId) :
    Yields config lib Q (¬ IsInternal ·) (Http.startRun lib headers ⟨tenantId⟩ agentId body) w past := by
  refine ensures_select (P := fun w => Q w.db.store ∧ w.db.store.authenticates lib headers tenantId) ⟨known, admitted⟩
    (fun s t others now => ⟨others.2.1 now.1, lasting_authenticates others.1 now.2⟩) (fun _ _ => rfl) ?_ ?_
  · rintro t c row ⟨known, admitted⟩ _ _ _ answered
    have found : t.db.store.findAgent tenantId agentId = row := Option.some.inj answered
    refine ⟨True.intro, ?_⟩
    cases row with
    | none => exact not_internal_error (by decide)
    | some agent =>
      have selected := List.find?_some found
      simp only [Bool.and_eq_true, beq_iff_eq] at selected
      have present : ∃ row ∈ t.db.store.agents, row.tenantId = tenantId ∧ row.id = agent.id :=
        ⟨agent, List.mem_of_find?_eq_some found, selected.1.1, rfl⟩
      change Yields config lib Q _ (ite (body.messages.isEmpty = true) _ _) t _
      split
      · exact not_internal_error (by decide)
      · refine Surroundings.Ensures.bind (yields_createOrGetRun rfl known admitted present) ?_
          (by rintro _ _ _ ⟨_, ⟨⟩⟩)
        rintro _ u later ⟨run, ⟨⟩⟩
        refine Surroundings.Ensures.bind yields_startCreatedRun (fun _ _ _ _ => not_internal_ok) ?_
        rintro fault v later (_ | _)
        · exact not_internal_error (by decide)
        · exact not_internal_error (by decide)
  · intro t c _ _ orderly failing
    exact absurd failing orderly.on

theorem yields_createTool {tenantId : Uuid} {body : CreateToolRequest}
    (admitted : w.db.store.authenticates lib headers tenantId) :
    Yields config lib Q (¬ IsInternal ·) (Http.createTool lib ⟨tenantId⟩ body) w past := by
  unfold Http.createTool
  split
  · exact not_internal_error (by decide)
  split
  · exact not_internal_error (by decide)
  next malformed =>
  simp only [Bool.or_eq_true, Bool.not_eq_eq_eq_not, Bool.not_true, not_or, Bool.not_eq_false] at malformed
  refine ensures_sql (P := fun w => w.db.store.authenticates lib headers tenantId) admitted
    (fun s t others admitted => lasting_authenticates others.1 admitted)
    fun t c answer db admitted sound orderly ran => ⟨True.intro, ?_⟩
  have new : ¬ ∃ tool ∈ t.db.store.tools, tool.id = c.id := fun taken => orderly.1.fresh (.inr (.inr (.inl taken)))
  rcases createTool_answer orderly.1.succeeds new malformed.1 malformed.2
    (Store.authenticates_tenant sound.wellFormed.accounts admitted) ran with ⟨row, rfl⟩ | rfl
  · exact not_internal_ok
  · exact not_internal_error (by decide)

theorem yields_deleteTool {tenantId toolId : Uuid} :
    Yields config lib Q (¬ IsInternal ·) (Http.deleteTool ⟨tenantId⟩ toolId) w past := by
  refine ensures_sql True.intro (fun _ _ _ _ => True.intro) fun t c answer db _ _ orderly ran => ⟨True.intro, ?_⟩
  simp only [execute, if_neg orderly.on, deleteTool] at ran
  cases ran
  change Yields config lib Q _ ((ite (_ = 0) _ _ >>= fun _ => pure Response.deleted) : Act Response) _ _
  split
  · exact not_internal_error (by decide)
  · exact not_internal_ok

/-- A request that only reads fails for no reason but a missing row. -/
theorem yields_reading {α : Type} {statement : Statement} {rest : Except SqlxError statement.Row → Act α}
    {kind : Except AppError α → Prop} (reads : ∀ (s : Store) c, (s.select c statement).isSome = true)
    (rule : ∀ t row later, Yields config lib Q kind (rest (.ok row)) t later) :
    Yields config lib Q kind (.call (.sql statement) rest) w past :=
  ensures_select True.intro (fun _ _ _ _ => True.intro) reads (fun t _ row _ _ _ _ _ => ⟨True.intro, rule t row _⟩)
    fun _ _ _ _ orderly failing => absurd failing orderly.on

/-- The requests that are checked completely. -/
def Request.Checked : Request → Prop
  | .createApiKey _ | .createAgent .. => False
  | _ => True

theorem yields_onBehalf {request : Request} {tenantId : Uuid} (checked : request.Checked)
    (sent : request.headers? = some headers) (known : Q w.db.store)
    (admitted : w.db.store.authenticates lib headers tenantId) :
    Yields config lib Q (¬ IsInternal ·) (request.onBehalf lib ⟨tenantId⟩) w past := by
  cases request with
  | createTenant body => cases sent
  | createApiKey owner => cases sent
  | createTool sent body => exact yields_createTool admitted
  | listTools sent => exact yields_reading (fun _ _ => rfl) fun _ _ _ => not_internal_ok
  | deleteTool sent toolId => exact yields_deleteTool
  | createAgent sent body => exact checked.elim
  | getAgent sent agentId =>
    apply yields_reading (fun _ _ => rfl)
    intro t row later
    cases row with
    | none => exact not_internal_error (by decide)
    | some agent => exact yields_reading (fun _ _ => rfl) fun _ _ _ => not_internal_ok
  | startRun sent' agentId body =>
    cases sent
    exact yields_startRun known admitted
  | getRun sent runId =>
    apply yields_reading (fun _ _ => rfl)
    intro t row later
    cases row with
    | none => exact not_internal_error (by decide)
    | some run => exact not_internal_ok
  | getTrace sent runId => exact yields_reading (fun _ _ => rfl) fun _ _ _ => not_internal_ok

/-- A completely checked request is never answered with an internal error. -/
theorem yields_checked {request : Request} (checked : request.Checked) (readable : ∀ s, Q s → s.Readable lib)
    (known : Q w.db.store) : Yields config lib Q (¬ IsInternal ·) (request.handler lib) w past := by
  have authenticated (headers : HeaderMap) (sent : request.headers? = some headers) :
      Yields config lib Q (¬ IsInternal ·)
          (authenticate lib headers >>= fun tenant => request.onBehalf lib tenant) w past :=
    yields_authenticate readable known fun _ _ _ known admitted => yields_onBehalf checked sent known admitted
  cases request with
  | createTenant body =>
    change Yields config lib Q _ (Http.createTenant body) w past
    unfold Http.createTenant
    split
    · exact not_internal_error (by decide)
    · refine ensures_sql True.intro (fun _ _ _ _ => True.intro) fun t c answer db _ _ orderly ran => ⟨True.intro, ?_⟩
      obtain ⟨row, rfl⟩ := createTenant_answer orderly.1.succeeds (fun taken => orderly.1.fresh (.inl taken)) ran
      exact not_internal_ok
  | createApiKey owner => exact checked.elim
  | createAgent sent body => exact checked.elim
  | _ => exact authenticated _ rfl

/-- A key is only refused for lack of its tenant. -/
def KeyReported (Q : Store → Prop) (tenantId : Uuid) (result : Except AppError Response) : Prop :=
  (IsInternal result ∧ ∃ s, Q s ∧ ¬ ∃ tenant ∈ s.tenants, tenant.id = tenantId) ∨
    (¬ IsInternal result ∧ ∃ s, Q s ∧ ∃ tenant ∈ s.tenants, tenant.id = tenantId)

/-- Other operations leave the committed rows alone. -/
theorem yields_other {α : Type} {op : Op} {rest : op.Answer → Act α} {kind : Except AppError α → Prop}
    (other : ∀ statement, op ≠ .sql statement) (known : Q w.db.store)
    (rule : ∀ t answer later, Q t.db.store → Yields config lib Q kind (rest answer) t later) :
    Yields config lib Q kind (.call op rest) w past := by
  refine Surroundings.Ensures.call (P := fun w : World => Q w.db.store) known (fun _ _ others now => others.2.1 now)
    fun t c owned effect known _ _ ran => ⟨True.intro, rule _ _ _ ?_⟩
  rw [Op.exec_store other ran]
  exact known

theorem yields_createApiKey {tenantId : Uuid} (hashes : lib.Hashes) (known : Q w.db.store) :
    Yields config lib Q (KeyReported Q tenantId) (Http.createApiKey lib tenantId) w past := by
  apply yields_other (by rintro _ ⟨⟩) known
  intro t drawn later known
  apply yields_other (by rintro _ ⟨⟩) known
  intro t secret later known
  apply yields_other (by rintro _ ⟨⟩) known
  intro t salt later known
  obtain ⟨keyHash, hashed⟩ := Option.isSome_iff_exists.mp (hashes.total salt (apiKeyOf drawn secret))
  change Yields config lib Q _ ((okOr (lib.hashPassword salt (apiKeyOf drawn secret)) _ >>= fun keyHash =>
    pure (_, _, keyHash) : Act (String × String × String)) >>= _) t later
  rw [hashed]
  refine ensures_sql (P := fun w => Q w.db.store) known (fun _ _ others now => others.2.1 now)
    fun u c answer db known _ orderly ran => ⟨True.intro, ?_⟩
  have new : ¬ ∃ key ∈ u.db.store.apiKeys, key.id = c.id := fun taken => orderly.1.fresh (.inr (.inl taken))
  rcases createApiKey_answer orderly.1.succeeds new
    (orderly.1.unused _ _ _ rfl) ran with ⟨tenant, rfl⟩ | ⟨orphan, rfl⟩
  · exact .inr ⟨not_internal_ok, _, known, tenant⟩
  · exact .inl ⟨⟨_, rfl, rfl⟩, _, known, orphan⟩

end Handlers

/-! ## Creating agents -/

theorem not_unlucky : ¬ Unlucky Orderly := by
  rintro ⟨op, c, w, orderly, failing | inUse⟩
  · exact orderly.on failing
  · exact orderly.1.fresh inUse

section Creating

variable {Q : Store → Prop} {headers : HeaderMap} {body : CreateAgentRequest} {result : Except AppError Response}
  {w : World} {past : List (Performed signature)} {s : Store}

/-- An internal error has one of two reasons. -/
theorem Handled.internal (handled : Handled (among lib config Q Orderly) Q headers body result w past)
    (readable : ∀ s, Q s → s.Readable lib) (internal : IsInternal result) : ∃ tenantId,
      (∃ s, Q s ∧ s.authenticates lib headers tenantId) ∧ (trim body.systemPrompt).isEmpty = false ∧
      (¬ (0 < body.maxIterations ∧ body.maxIterations ≤ 50) ∨
        (∃ s, Q s ∧ ¬ TakesName s.agents tenantId (body.name.map trim)) ∧
          ∃ done toolId rest, body.toolIds = done ++ toolId :: rest ∧ toolId ∈ done ∧
            ∀ earlier ∈ done, ∃ s, Q s ∧ ActiveTool s tenantId earlier) := by
  obtain ⟨fault, rfl, code⟩ := internal
  cases handled with
  | unauthenticated known refused quiet =>
    rw [refused.invalid (readable _ known)] at code
    exact absurd code (by decide)
  | unread progress possible => exact absurd possible not_unlucky
  | @declined _ _ _ tenantId _ known admitted declined quiet =>
    refine ⟨tenantId, ⟨_, known, admitted⟩, ?_⟩
    cases declined with
    | unlucky possible error => exact absurd possible not_unlucky
    | blank empty => exact absurd code (by decide)
    | duplicate prompt fits known taken => exact absurd code (by decide)
    | missing split passed known absent => exact absurd code (by decide)
    | range prompt unfit => exact ⟨prompt, .inl unfit⟩
    | repeated split passed again known active =>
      exact ⟨passed.prompt, .inr ⟨passed.unnamed, _, _, _, split, again, passed.active⟩⟩

/-- The first missing tool comes before any repeated one, or after it. -/
private theorem split_cases {α : Type} {xs before after front back : List α} {x y : α}
    (left : xs = before ++ x :: after) (right : xs = front ++ y :: back) (distinct : before.Nodup)
    (again : y ∈ front) : x ∈ front := by
  subst left
  rcases List.append_eq_append_iff.mp right with ⟨more, rfl, same⟩ | ⟨more, rfl, same⟩
  · cases more with
    | nil =>
      obtain ⟨rfl, _⟩ := List.cons.inj same
      simpa using again
    | cons z more =>
      obtain ⟨rfl, _⟩ := List.cons.inj same
      simp
  · cases more with
    | nil =>
      obtain ⟨rfl, _⟩ := List.cons.inj same
      exact again
    | cons z more =>
      obtain ⟨rfl, _⟩ := List.cons.inj same
      exact absurd rfl ((List.nodup_append.mp distinct).2.2 y again y List.mem_cons_self)

/-- A request that is not answered with an internal error is fit. -/
theorem Handled.fit (handled : Handled (among lib config Q Orderly) Q headers body result w past)
    (alike : ∀ t, Q t → s.AlikeFor lib headers body t) (fine : ¬ IsInternal result) :
    ¬ (Request.createAgent headers body).Unfit lib s := by
  rintro ⟨tenantId, admitted, prompt, broken⟩
  cases handled with
  | unread progress possible => exact absurd possible not_unlucky
  | @unauthenticated t _ _ _ known refused quiet =>
    obtain ⟨_, _, orderly, failing⟩ := refused.failed (((alike _ known).authenticates tenantId).mpr admitted)
    exact orderly.on failing
  | @created _ _ owner _ agent _ progress =>
    rcases broken with unfit | ⟨_, done, toolId, rest, split, again, _⟩
    · exact unfit progress.passed.fits
    · have distinct := progress.passed.distinct
      rw [split] at distinct
      exact absurd rfl ((List.nodup_append.mp distinct).2.2 toolId again toolId List.mem_cons_self)
  | @declined t _ _ owner _ known admitted' declined quiet =>
    obtain rfl := Store.authenticates_unique admitted (((alike _ known).authenticates owner).mp admitted')
    cases declined with
    | unlucky possible error => exact absurd possible not_unlucky
    | blank empty => simp [prompt] at empty
    | range prompt unfit => exact fine ⟨_, rfl, rfl⟩
    | repeated split passed again known active => exact fine ⟨_, rfl, rfl⟩
    | duplicate prompt fits known taken =>
      rcases broken with unfit | ⟨unnamed, _⟩
      · exact unfit fits
      · exact unnamed (((alike _ known).names _ admitted).mp taken)
    | missing split passed known absent =>
      rcases broken with unfit | ⟨_, done, toolId, rest, split', again, active⟩
      · exact unfit passed.fits
      · have before := split_cases split split' passed.distinct again
        have wanted : _ ∈ body.toolIds := split' ▸ List.mem_append_left _ before
        exact absent (((alike _ known).tools _ admitted _ wanted).mpr (active _ before))

end Creating

/-! ## Internal errors -/

theorem readable_of_started {events : List (Event (platform lib config))} {pool : Pool (platform lib config)}
    (hashes : lib.Hashes) (path : Path (started lib config) events pool) : pool.shared.db.store.Readable lib := by
  intro key present
  obtain ⟨i, c, stored⟩ := stored_of_row path present
  obtain ⟨drawn, secret, _, made⟩ := made_of_stored path stored
  obtain ⟨salt, hashed⟩ := made.hashed
  exact hashes.parses _ _ _ hashed

/-- Every operation of the thread is healthy. -/
def EachHealthy (i : ℕ) (first : Pool (platform lib config)) (events : List (Event (platform lib config))) : Prop :=
  ∀ before c what after middle, events = before ++ .performed i c what :: after → Path first before middle →
    Healthy what.op c middle.shared

section Threads

variable {events more : List (Event (platform lib config))} {pool last : Pool (platform lib config)} {i : ℕ}

/-- A healthy operation on a reachable state is an orderly one. -/
theorem orderly_of_healthy {next : Pool (platform lib config)} {c : Choice} {what : Performed signature}
    (path : Path (started lib config) events pool) (step : Step pool (.performed i c what) next)
    (healthy : Healthy what.op c pool.shared) : Orderly what.op c pool.shared := by
  refine ⟨healthy, fun tenantId runId eventType payload error db same failed => ?_⟩
  obtain ⟨op, answer⟩ := what
  cases same
  have ran := execute_of_step step
  rw [failed] at ran
  cases ran
  rcases appendEvent_error path step with ⟨_, failing⟩ | ⟨_, row, present, same⟩
  · rw [healthy.succeeds] at failing
    cases failing
  · exact healthy.fresh (.inr (.inr (.inr (.inr (.inr ⟨row, present, same⟩)))))

/-- The surroundings of a thread on a healthy database. -/
theorem around_of_healthy {Q : Store → Prop} (path : Path (started lib config) events pool)
    (healthy : EachHealthy i pool more) (keep : OthersKeep i pool more fun w => Q w.db.store) :
    (among lib config Q Orderly).Around i pool more :=
  around_of_started path keep fun before c what after middle _ same until_then step =>
    orderly_of_healthy (path.append until_then) step (healthy before c what after middle same until_then)

/-- The hashes stay readable while others keep another property. -/
theorem keep_readable {P : Store → Prop} (hashes : lib.Hashes) (path : Path (started lib config) events pool)
    (keep : OthersKeep i pool more fun w => P w.db.store) : OthersKeep i pool more fun w =>
      w.db.store.Readable lib ∧ P w.db.store := by
  rintro before event after middle next rfl until_then step other ⟨_, now⟩
  exact ⟨readable_of_started hashes ((path.append until_then).snoc step),
    keep before event after middle next rfl until_then step other now⟩

/-- What is known of the result of a request, with the reason for an internal error. -/
def Explained (lib : Libraries) (config : Config) (Q : Store → Prop) (request : Request)
    (result : Except AppError Response) : Prop :=
  match request with
  | .createApiKey tenantId => KeyReported Q tenantId result
  | .createAgent headers body => ∃ w past, Handled (among lib config Q Orderly) Q headers body result w past
  | _ => ¬ IsInternal result

theorem explained_of_returned {Q : Store → Prop} {request : Request} {result : Except AppError Response}
    (hashes : lib.Hashes) (readable : ∀ s, Q s → s.Readable lib) (path : Path pool more last)
    (around : (among lib config Q Orderly).Around i pool more)
    (waiting : pool.threads[i]? = some ⟨.http request, [], request.handler lib⟩) (known : Q pool.shared.db.store)
    (returned : last.Returned i (.http request) result) : Explained lib config Q request result := by
  have fine (checked : request.Checked) : ¬ IsInternal result := by
    have yields : Yields config lib Q (¬ IsInternal ·) (request.handler lib) pool.shared [] :=
      yields_checked checked readable known
    obtain ⟨_, _, _, _, _, _, _, fine⟩ := yields.returned path around waiting returned
    exact fine
  cases request with
  | createApiKey tenantId =>
    have yields : Yields config lib Q (KeyReported Q tenantId) (Http.createApiKey lib tenantId) pool.shared [] :=
      yields_createApiKey hashes known
    obtain ⟨_, _, _, _, _, _, _, reported⟩ := yields.returned path around waiting returned
    exact reported
  | createAgent headers body =>
    obtain ⟨_, _, _, _, _, _, _, handled⟩ := (ensures_create known).returned path around waiting returned
    exact ⟨_, _, handled⟩
  | _ => exact fine True.intro

end Threads

/-- A sensible request is never answered with an internal error. While nobody else changes what decides about the
request, it is answered with an internal error exactly if it is unfit. -/
theorem internal_error_iff_unfit {events more : List (Event (platform lib config))}
    {pool last : Pool (platform lib config)} {request : Request} {result : Except AppError Response}
    (hashes : lib.Hashes) (path : Path (started lib config) events pool)
    (later : Path pool (.arrived (.http request) :: more) last)
    (healthy : EachHealthy pool.threads.length pool (.arrived (.http request) :: more))
    (returned : last.Returned pool.threads.length (.http request) result) :
    (request.Sensible pool.shared.db.store → ¬ IsInternal result) ∧
    (OthersKeep pool.threads.length pool (.arrived (.http request) :: more)
        (fun w => pool.shared.db.store.Alike lib request w.db.store) →
      (IsInternal result ↔ request.Unfit lib pool.shared.db.store)) := by
  obtain ⟨next, arrives, rest, same, waiting⟩ := later.arrival
  have sound : EachHealthy pool.threads.length next more := by
    rintro before c what after middle rfl until_then
    exact healthy (_ :: before) c what after middle rfl ((Path.single arrives).append until_then)
  have readable := readable_of_started hashes (path.snoc arrives)
  have reported {P : Store → Prop} (keep : OthersKeep pool.threads.length next more fun w => P w.db.store)
      (now : P next.shared.db.store) : Explained lib config (fun s => s.Readable lib ∧ P s) request result :=
    explained_of_returned hashes (fun _ known => known.1) rest
      (around_of_healthy (path.snoc arrives) sound (keep_readable hashes (path.snoc arrives) keep)) waiting
        ⟨readable, now⟩ returned
  constructor
  · intro sensible
    have keep : OthersKeep pool.threads.length next more fun w => request.Sensible w.db.store := by
      rintro before event after middle state rfl until_then step _ now
      exact now.evolve (evolves_of_started ((path.snoc arrives).append until_then) step)
    have told := reported (P := fun s => request.Sensible s) keep (same ▸ sensible)
    cases request with
    | createApiKey tenantId =>
      rcases told with ⟨_, s, known, orphan⟩ | ⟨fine, _⟩
      · exact absurd known.2 orphan
      · exact fine
    | createAgent headers body =>
      obtain ⟨w, past, handled⟩ := told
      intro internal
      obtain ⟨_, _, _, unfit | ⟨_, done, toolId, rest, split, again, _⟩⟩ :=
        handled.internal (fun _ known => known.1) internal
      · exact unfit sensible.1
      · have distinct := sensible.2
        rw [split] at distinct
        exact (List.nodup_append.mp distinct).2.2 toolId again toolId List.mem_cons_self rfl
    | _ => exact told
  · intro keep
    have told := reported (P := fun s => pool.shared.db.store.Alike lib request s) (keep.tail arrives)
      (same ▸ Store.Alike.refl ..)
    cases request with
    | createApiKey tenantId =>
      rcases told with ⟨internal, s, known, orphan⟩ | ⟨fine, s, known, tenant⟩
      · exact iff_of_true internal fun tenant => orphan (known.2.mpr tenant)
      · exact iff_of_false fine fun orphan => orphan (known.2.mp tenant)
    | createAgent headers body =>
      obtain ⟨w, past, handled⟩ := told
      refine ⟨fun internal => ?_, fun unfit => ?_⟩
      · obtain ⟨tenantId, ⟨s, known, admitted⟩, prompt, broken⟩ := handled.internal (fun _ known => known.1) internal
        have mine := (known.2.authenticates tenantId).mp admitted
        refine ⟨tenantId, mine, prompt, broken.imp id ?_⟩
        rintro ⟨⟨t, known, unnamed⟩, done, toolId, rest, split, again, active⟩
        refine ⟨fun taken => unnamed ((known.2.names _ mine).mpr taken), done, toolId, rest, split,
          again, fun earlier member => ?_⟩
        obtain ⟨u, known, active⟩ := active earlier member
        have wanted : earlier ∈ body.toolIds := split ▸ List.mem_append_left _ member
        exact (known.2.tools _ mine _ wanted).mp active
      · by_contra fine
        exact handled.fit (fun _ known => known.2) fine unfit
    | _ => exact iff_of_false told id

namespace Scenario

/-- Some row of the database has this id. -/
def inUse (db : Database) (id : Uuid) : Bool :=
  db.store.tenants.any (·.id == id) || db.store.apiKeys.any (·.id == id) || db.store.tools.any (·.id == id) ||
    (everything db.store.agents db.pendingAgents).any (·.id == id) ||
    (everything db.store.runs db.pendingRuns).any (·.id == id) || db.store.runTraces.any (·.id == id)

theorem of_inUse {db : Database} {id : Uuid} (unused : inUse db id = false) : ¬ db.UsesId id := by
  simp only [inUse, Bool.or_eq_false_iff, List.any_eq_false, beq_iff_eq] at unused
  obtain ⟨⟨⟨⟨⟨tenants, apiKeys⟩, tools⟩, agents⟩, runs⟩, traces⟩ := unused
  rintro (⟨row, present, same⟩ | ⟨row, present, same⟩ | ⟨row, present, same⟩ | ⟨row, present, same⟩ |
    ⟨row, present, same⟩ | ⟨row, present, same⟩)
  · exact tenants row present same
  · exact apiKeys row present same
  · exact tools row present same
  · exact agents row present same
  · exact runs row present same
  · exact traces row present same

def storesKey : Op → Bool
  | .sql (.createApiKey ..) => true
  | _ => false

/-- Before there are runs, and for the first key. -/
def healthy (pool : Pool (platform permissive ⟨1, 1⟩)) : Event (platform permissive ⟨1, 1⟩) → Bool
  | .arrived _ => true
  | .performed _ c what => !c.fail && !inUse pool.shared.db c.id && pool.shared.db.store.runs.isEmpty &&
      (!storesKey what.op || pool.shared.db.store.apiKeys.isEmpty)

theorem of_healthy {pool : Pool (platform permissive ⟨1, 1⟩)} {i : ℕ} {c : Choice} {what : Performed signature}
    (checked : healthy pool (.performed i c what) = true) : Healthy what.op c pool.shared := by
  simp only [healthy, Bool.and_eq_true, Bool.not_eq_eq_eq_not, Bool.not_true, List.isEmpty_iff] at checked
  obtain ⟨⟨⟨succeeds, fresh⟩, noRuns⟩, noKeys⟩ := checked
  refine ⟨succeeds, of_inUse fresh, ?_, ?_⟩
  · rintro tenantId keyPrefix keyHash same key present
    rw [same] at noKeys
    simp only [storesKey, Bool.not_true, Bool.false_or, List.isEmpty_iff] at noKeys
    rw [noKeys] at present
    cases present
  · rintro _ _ _ _ _ _ run present
    rw [noRuns] at present
    cases present

def isInternal : Except AppError Response → Bool
  | .error fault => fault.errorCode == "internal_error"
  | .ok _ => false

theorem isInternal_iff {result : Except AppError Response} : isInternal result = true ↔ IsInternal result := by
  cases result with
  | ok response => exact iff_of_false (by simp [isInternal]) not_internal_ok
  | error fault => simp [isInternal, IsInternal]

/-- The request is served alone, everything is healthy, and the answer is like this. -/
def ServedAlone (pool : Pool (platform permissive ⟨1, 1⟩)) (request : Request)
    (kind : Except AppError Response → Prop) : Prop :=
  ∃ more last result, Path pool (.arrived (.http request) :: more) last ∧
    (∀ event ∈ more, event.IsBy pool.threads.length) ∧
    EachHealthy pool.threads.length pool (.arrived (.http request) :: more) ∧
    last.Returned pool.threads.length (.http request) result ∧ kind result

/-- The request is answered with an internal error although everything is healthy. -/
def Fails (pool : Pool (platform permissive ⟨1, 1⟩)) (request : Request) : Prop := ServedAlone pool request IsInternal

def servesAlone (request : Request) (choices : List Choice) (check : Except AppError Response → Bool)
    (pool : Pool (platform permissive ⟨1, 1⟩)) : Bool :=
  (pool.replayAll healthy (.arrive (.http request) :: choices.map (.act pool.threads.length))) &&
    (pool.replay? (.arrive (.http request) :: choices.map (.act pool.threads.length))).any fun outcome =>
      (outcome.2.result? pool.threads.length).any check

theorem of_servesAlone {request : Request} {choices : List Choice} {check : Except AppError Response → Bool}
    {kind : Except AppError Response → Prop} {pool : Pool (platform permissive ⟨1, 1⟩)}
    (checked : servesAlone request choices check pool = true) (shows : ∀ result, check result = true → kind result) :
    ServedAlone pool request kind := by
  simp only [servesAlone, Bool.and_eq_true] at checked
  obtain ⟨more, last, result, later, alone, returned, answered, replayed⟩ :=
    pool.exists_alone (.http request) rfl choices (fun result _ _ => check result) checked.2
  refine ⟨more, last, result, later, fun event member => ?_, ?_, returned, shows result answered⟩
  · obtain ⟨choice, _, what, rfl⟩ := alone event member
    exact ⟨choice, what, rfl⟩
  · intro before c what after middle same path
    exact of_healthy (Pool.replayAll_each checked.1 replayed same path)

/-- Random characters for one request. -/
def keyChoices : List Choice :=
  [{ choice 1 with chars := List.replicate 12 'a' }, { choice 2 with chars := List.replicate 32 'a' }] ++ choices 3 2

theorem permissive_hashes : permissive.Hashes := ⟨fun _ _ => rfl, fun _ _ _ _ => rfl⟩

theorem of_fails {request : Request} {choices : List Choice} {pool : Pool (platform permissive ⟨1, 1⟩)}
    (checked : servesAlone request choices isInternal pool = true) : Fails pool request :=
  of_servesAlone checked fun _ => isInternal_iff.mp

theorem unknown_tenant_fails : Fails (started permissive ⟨1, 1⟩) (.createApiKey 99) := by
  have checked : servesAlone (.createApiKey 99) keyChoices isInternal (started permissive ⟨1, 1⟩) = true :=
    by decide +kernel
  exact of_fails checked

/-- A tenant has the tool 11. -/
def tooled : List (Label (platform permissive ⟨1, 1⟩)) :=
  onboarding ++ [arrive (.createTool headers staticTool)] ++ moves 2 10 2

/-- An agent that uses a tool once. -/
def fitAgent : CreateAgentRequest := ⟨none, "Answer.", [11], 5⟩

/-- An agent that uses a tool twice. -/
def repeatingAgent : CreateAgentRequest := ⟨none, "Answer.", [11, 11], 5⟩

end Scenario

/-- A tenant that has a tool asks for an agent that uses it twice, and for one that uses it once. -/
theorem internal_error_iff_unfit_served : ∃ events pool, Path (started permissive ⟨1, 1⟩) events pool ∧
    ActiveTool pool.shared.db.store 1 11 ∧
    ServedAlone pool (.createAgent headers repeatingAgent) (fun result => IsInternal result ∧
      (Request.createAgent headers repeatingAgent).Unfit permissive pool.shared.db.store) ∧
    ServedAlone pool (.createAgent headers fitAgent) (fun result => ¬ IsInternal result ∧
      (Request.createAgent headers fitAgent).Sensible pool.shared.db.store ∧
      ¬ (Request.createAgent headers fitAgent).Unfit permissive pool.shared.db.store) := by
  obtain ⟨events, pool, path, checked⟩ := (started permissive ⟨1, 1⟩).exists_path tooled
    (fun _ pool =>
      pool.shared.db.store.tools.any (fun row => row.tenantId == 1 && row.id == 11 && row.deletedAt == none) &&
      servesAlone (.createAgent headers repeatingAgent) (choices 20 8) isInternal pool &&
      servesAlone (.createAgent headers fitAgent) (choices 20 7) Except.toBool pool) (by decide +kernel)
  simp only [Bool.and_eq_true, List.any_eq_true, beq_iff_eq] at checked
  obtain ⟨⟨⟨tool, present, ⟨owner, named⟩, active⟩, repeating⟩, fit⟩ := checked
  have alone {more : List (Event (platform permissive ⟨1, 1⟩))} {request : Request} {P : World → Prop}
      (mine : ∀ event ∈ more, event.IsBy pool.threads.length) :
      OthersKeep pool.threads.length pool (.arrived (.http request) :: more) P := by
    refine OthersKeep.of_alone (fun event member => ?_) _
    rcases List.mem_cons.mp member with rfl | member
    · exact .inr ⟨_, rfl⟩
    · exact .inl (mine event member)
  refine ⟨events, pool, path, ⟨tool, present, owner, named, active⟩, ?_, ?_⟩
  · obtain ⟨more, last, result, later, mine, healthy, returned, internal⟩ := of_fails repeating
    obtain ⟨_, exactly⟩ := internal_error_iff_unfit permissive_hashes path later healthy returned
    exact ⟨more, last, result, later, mine, healthy, returned, internal, (exactly (alone mine)).mp internal⟩
  · obtain ⟨more, last, result, later, mine, healthy, returned, _⟩ := of_servesAlone fit fun _ created => created
    obtain ⟨sensible, exactly⟩ := internal_error_iff_unfit permissive_hashes path later healthy returned
    have asked : (Request.createAgent headers fitAgent).Sensible pool.shared.db.store := by
      refine ⟨⟨?_, ?_⟩, ?_⟩ <;> decide
    have fine := sensible asked
    exact ⟨more, last, result, later, mine, healthy, returned, fine, asked, fun unfit =>
      fine ((exactly (alone mine)).mpr unfit)⟩

/-- A key for an unknown tenant, too many iterations, and a tool that is requested twice. -/
theorem internal_error_caused : Fails (started permissive ⟨1, 1⟩) (.createApiKey 99) ∧
    ∃ events pool, Path (started permissive ⟨1, 1⟩) events pool ∧
      Fails pool (.createAgent headers ⟨none, "Answer.", [], 51⟩) ∧
      Fails pool (.createAgent headers ⟨none, "Answer.", [11, 11], 5⟩) := by
  refine ⟨unknown_tenant_fails, ?_⟩
  obtain ⟨events, pool, path, checked⟩ := (started permissive ⟨1, 1⟩).exists_path tooled
    (fun _ pool => servesAlone (.createAgent headers ⟨none, "Answer.", [], 51⟩) (choices 20 4) isInternal pool &&
      servesAlone (.createAgent headers ⟨none, "Answer.", [11, 11], 5⟩) (choices 20 8) isInternal pool)
    (by decide +kernel)
  simp only [Bool.and_eq_true] at checked
  exact ⟨events, pool, path, of_fails checked.1, of_fails checked.2⟩

end AgentPlatform
