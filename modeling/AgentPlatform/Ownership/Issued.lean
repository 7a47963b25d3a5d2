import AgentPlatform.Ownership.Usage

/-! # What a request writes

Every statement that inserts a row is issued by one kind of request, with the values of the request
after its handler has checked them.
-/

set_option autoImplicit false

namespace AgentPlatform

open Interleaving

/-! ## Requests that pass the checks of their handlers -/

structure CreateTenantRequest.Valid (body : CreateTenantRequest) : Prop where
  named : (trim body.name).isEmpty = false

structure CreateToolRequest.Valid (body : CreateToolRequest) : Prop where
  named : (trim body.name).isEmpty = false
  inputSchema : body.inputSchema.isObject = true
  mockHandler : body.mockHandler.isObject = true

structure CreateAgentRequest.Valid (body : CreateAgentRequest) : Prop where
  prompted : (trim body.systemPrompt).isEmpty = false

structure StartRunRequest.Valid (body : StartRunRequest) : Prop where
  asked : body.messages.isEmpty = false

/-- What a request writes, and that it passed the checks. -/
def Request.Issues (request : Request) : Op → Prop
  | .sql (.createTenant name) => ∃ body, request = .createTenant body ∧ body.Valid ∧ name = trim body.name
  | .sql (.createApiKey tenantId _ _) => request = .createApiKey tenantId
  | .sql (.createTool _ name inputSchema mockHandler) => ∃ headers body, request = .createTool headers body ∧
      body.Valid ∧ name = trim body.name ∧ inputSchema = body.inputSchema ∧ mockHandler = body.mockHandler
  | .sql (.deleteTool _ toolId) => ∃ headers, request = .deleteTool headers toolId
  | .sql (.insertAgent _ _ name systemPrompt maxIterations) =>
      ∃ headers body, request = .createAgent headers body ∧ body.Valid ∧
      name = body.name.map trim ∧ systemPrompt = trim body.systemPrompt ∧ maxIterations = body.maxIterations
  | .sql (.insertAgentTool _ _ _ toolId) => ∃ headers body, request = .createAgent headers body ∧ body.Valid ∧
      toolId ∈ body.toolIds
  | .sql (.insertRun _ _ _ inputMessages idempotencyKey) =>
      ∃ headers agentId body, request = .startRun headers agentId body ∧ body.Valid ∧
      inputMessages = ChatMessage.listToValue body.messages ∧ idempotencyKey = Http.idempotencyKey headers
  | .sql (.commit _) => (∃ headers body, request = .createAgent headers body) ∨
      ∃ headers agentId body, request = .startRun headers agentId body
  | _ => True

variable {lib : Libraries} {request : Request} {headers : HeaderMap} {tenantId agentId runId tx : Uuid} {op : Op}

theorem Op.Starts.issued (starts : op.Starts tenantId runId) : request.Issues op := by
  cases op with
  | sql statement => cases statement <;> first | exact starts.elim | trivial
  | _ => trivial

theorem Op.Inserts.issued {wanted : Uuid} {body : StartRunRequest} (valid : body.Valid)
    (inserts : op.Inserts tenantId agentId (ChatMessage.listToValue body.messages) (Http.idempotencyKey headers)) :
    (Request.startRun headers wanted body).Issues op := by
  cases op with
  | sql statement =>
    cases statement with
    | insertRun tx owner agent messages key => exact ⟨headers, wanted, body, rfl, valid, inserts.2.2.1, inserts.2.2.2⟩
    | commit tx => exact .inr ⟨headers, wanted, body, rfl⟩
    | begin | findRunByKey tx owner agent key => trivial
    | _ => exact inserts.elim
  | _ => trivial

/-- A query whose answer is not used for writing. -/
private theorem uses_reading {statement : Statement} {α : Type} {rest : statement.Row → Act α}
    (issued : request.Issues (.sql statement)) (later : ∀ row, (rest row).Uses request.Issues) :
    (query statement >>= rest).Uses request.Issues :=
  Program.uses_bind (uses_query issued) later

private theorem uses_bindTools_issued {body : CreateAgentRequest} (valid : body.Valid) {toolIds : List Uuid}
    (wanted : toolIds ⊆ body.toolIds) :
    (Db.bindTools tx tenantId agentId toolIds).Uses (Request.createAgent headers body).Issues := by
  induction toolIds with
  | nil => trivial
  | cons toolId rest ih =>
    obtain ⟨first, others⟩ := List.cons_subset.mp wanted
    refine Program.uses_bind (Program.uses_bind (uses_query True.intro) fun present => ?_) fun _ => ih others
    exact Program.uses_ite (uses_query ⟨headers, body, rfl, valid, first⟩) True.intro

private theorem uses_createAgent_issued {body : CreateAgentRequest} (valid : body.Valid) :
    (Db.createAgent tenantId (body.name.map trim) (trim body.systemPrompt) body.toolIds body.maxIterations).Uses
      (Request.createAgent headers body).Issues := by
  apply Program.uses_bind (uses_query True.intro)
  intro tx
  apply uses_transaction True.intro
  refine ⟨⟨headers, body, rfl, valid, rfl, rfl, rfl⟩, fun answer => ?_⟩
  rcases answer with (constraint | _) | row
  · cases constraint <;> trivial
  all_goals try trivial
  refine Program.uses_bind ?_ fun agent => ?_
  · trivial
  apply Program.uses_bind (uses_bindTools_issued valid (List.Subset.refl _))
  intro _
  exact Program.uses_bind (uses_query (.inl ⟨headers, body, rfl⟩)) fun _ => True.intro

private theorem uses_startRun_issued {tenant : TenantContext} {wanted : Uuid} {body : StartRunRequest} :
    (Http.startRun lib headers tenant wanted body).Uses (Request.startRun headers wanted body).Issues := by
  refine Program.uses_bind (uses_reading ?_ fun _ => True.intro) fun found => ?_
  · trivial
  apply Program.uses_bind (uses_okOr ..)
  intro agent
  split
  · trivial
  · next nonempty =>
    apply Program.uses_bind ((uses_createOrGetRun ..).mono fun _ =>
      Op.Inserts.issued ⟨Bool.eq_false_iff.mpr nonempty⟩)
    rintro ⟨run, created⟩
    refine Program.uses_ite ?_ True.intro
    exact Program.uses_bind (uses_startCreatedRun.mono fun _ => Op.Starts.issued) fun _ => True.intro

private theorem uses_onBehalf_issued (sent : request.headers? = some headers) (tenant : TenantContext) :
    (request.onBehalf lib tenant).Uses request.Issues := by
  cases request with
  | createTenant body => cases sent
  | createApiKey owner => cases sent
  | createTool _ body =>
    change (Http.createTool lib tenant body).Uses _
    unfold Http.createTool
    split
    · trivial
    · next named =>
      split
      · trivial
      · next objects =>
        simp only [Bool.or_eq_true, Bool.not_eq_true', not_or, Bool.not_eq_false] at objects
        have valid : body.Valid := ⟨Bool.eq_false_iff.mpr named, objects.1, objects.2⟩
        apply Program.uses_bind
        · refine ⟨⟨_, body, rfl, valid, rfl, rfl, rfl⟩, fun answer => ?_⟩
          rcases answer with (constraint | _) | row
          · cases constraint <;> trivial
          all_goals trivial
        · exact fun _ => True.intro
  | listTools _ =>
    refine Program.uses_bind (uses_reading ?_ fun _ => True.intro) fun _ => True.intro
    trivial
  | deleteTool _ toolId =>
    refine Program.uses_bind (uses_reading ?_ fun count => ?_) fun _ => True.intro
    · exact ⟨_, rfl⟩
    · exact Program.uses_ite True.intro True.intro
  | createAgent _ body =>
    change (Http.createAgent tenant body).Uses _
    unfold Http.createAgent
    split
    · trivial
    · next prompted =>
      apply Program.uses_bind (uses_createAgent_issued ⟨Bool.eq_false_iff.mpr prompted⟩)
      intro agent
      refine uses_reading ?_ fun _ => True.intro
      trivial
  | getAgent _ wanted =>
    refine Program.uses_bind (uses_reading ?_ fun _ => True.intro) fun found => ?_
    · trivial
    refine Program.uses_bind (uses_okOr ..) fun agent => uses_reading ?_ fun _ => True.intro
    trivial
  | startRun _ wanted body =>
    cases sent
    exact uses_startRun_issued
  | getRun _ runId =>
    refine Program.uses_bind (uses_reading ?_ fun _ => True.intro) fun found =>
      Program.uses_bind (uses_okOr ..) fun _ => True.intro
    trivial
  | getTrace _ runId =>
    refine Program.uses_bind (uses_reading ?_ fun _ => True.intro) fun _ => True.intro
    trivial

/-- A request only writes what it was asked to, after the checks of its handler. -/
theorem uses_issued (request : Request) : (request.handler lib).Uses request.Issues := by
  have authenticated {headers : HeaderMap} (sent : request.headers? = some headers) :
      (request.handler lib).Uses request.Issues := by
    rw [Request.handler_eq sent]
    exact Program.uses_bind (uses_authenticate fun _ => True.intro) (uses_onBehalf_issued sent)
  cases request with
  | createTenant body =>
    change (Http.createTenant body).Uses _
    unfold Http.createTenant
    split
    · trivial
    · next named =>
      refine Program.uses_bind (uses_reading ?_ fun _ => True.intro) fun _ => True.intro
      exact ⟨body, rfl, ⟨Bool.eq_false_iff.mpr named⟩, rfl⟩
  | createApiKey owner =>
    apply Program.uses_bind
    · apply Program.uses_bind (Program.uses_perform True.intro)
      intro keyPrefix
      apply Program.uses_bind (Program.uses_perform True.intro)
      intro secret
      apply Program.uses_bind (Program.uses_perform True.intro)
      intro salt
      exact Program.uses_bind (uses_okOr ..) fun _ => True.intro
    · intro key
      refine uses_reading ?_ fun _ => True.intro
      rfl
  | _ => exact authenticated rfl

end AgentPlatform
