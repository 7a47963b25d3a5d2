import AgentPlatform.Ownership.Transactions

/-! # The handlers without runs

Authentication, and the handlers that neither open a transaction nor write a run. They own nothing,
so all that matters about their statements is the tenant that these name.
-/

set_option autoImplicit false

namespace AgentPlatform

open Interleaving Relational Database

variable {lib : Libraries} {config : Config} {task : Task} {claim : Set Token}
  {permits : List SemaphoreRef} {w : World} {past : List (Performed signature)}

/-- Operations that own nothing and act for this tenant at most. -/
def Plain (tenant : Option Uuid) : Op → Prop
  | .sql statement => unowned statement = true ∧ ∀ tenantId, statement.tenant? = some tenantId →
      tenant = some tenantId
  | .sampleAlphanumeric _ | .generateSalt => True
  | _ => False

/-- Statements of this tenant that own nothing. -/
def Own (tenantId : Uuid) : Op → Prop
  | .sql statement => unowned statement = true ∧ statement.tenant? = some tenantId
  | _ => False

theorem Own.plain {tenantId : Uuid} {op : Op} (mine : Own tenantId op) : Plain (some tenantId) op := by
  cases op with
  | sql statement => exact ⟨mine.1, fun _ same => mine.2.symm.trans same⟩
  | _ => cases mine

/-- Programs of plain operations are safe, whatever they answer. -/
theorem safe_plain {ε α : Type} {program : Program signature ε α} {tenant : Option Uuid}
    (uses : program.Uses (Plain tenant))
    (acts : ∀ tenantId, tenant = some tenantId → task.ActsFor lib w.db.store tenantId) :
    (ownership lib config).Safe task (fun _ claim' permits' _ _ => claim' = claim ∧ permits' = permits)
      program claim permits w past := by
  have lasting : Lasting fun s => ∀ tenantId, tenant = some tenantId → task.ActsFor lib s tenantId :=
    fun _ _ evolves known tenantId same => lasting_actsFor tenantId evolves (known tenantId same)
  induction program generalizing w past with
  | done result => exact safe_done Lasting.trivial.persistent True.intro fun _ _ => ⟨rfl, rfl⟩
  | call op next ih =>
    obtain ⟨plain, later⟩ := uses
    cases op with
    | sql statement =>
      apply safe_unowned plain.1 lasting.persistent acts (fun t now tenant named => now tenant (plain.2 tenant named))
      intro before after c answer _ now _ _ _
      exact ih answer (later answer) now
    | sampleAlphanumeric count =>
      apply safe_quiet lasting.persistent acts rfl
      intro t c effect now may ran
      simp only [Op.exec, Option.ite_none_right_eq_some] at ran
      cases ran.2
      exact ⟨rfl, rfl, may, ih _ (later _)⟩
    | generateSalt =>
      apply safe_quiet lasting.persistent acts rfl
      intro t c effect now may ran
      cases ran
      exact ⟨rfl, rfl, may, ih _ (later _)⟩
    | _ => cases plain

/-! ## Authentication -/

theorem Request.handler_eq {request : Request} {headers : HeaderMap} (sent : request.headers? = some headers) :
    request.handler lib = authenticate lib headers >>= fun tenant => request.onBehalf lib tenant := by
  cases request <;> cases sent <;> rfl

/-- What `authenticate` leaves in the history. -/
def Looked (past past' : List (Performed signature)) : Prop :=
  past' = past ∨ ∃ keyPrefix answer, past' = past ++ [⟨.sql (.findActiveApiKeyByPrefix keyPrefix), answer⟩]

/-- The caller continues on behalf of the tenant that the headers authenticate as. -/
theorem safe_authenticate {request : Request} {headers : HeaderMap} {ε α : Type}
    {post : Except ε α → (ownership lib config).Assertion}
    {rest : Except AppError TenantContext → Program signature ε α}
    (sent : request.headers? = some headers)
    (ok : ∀ t past' tenant, (Task.http request).ActsFor lib t.db.store tenant.tenantId → Looked past past' →
      (ownership lib config).Safe (.http request) post (rest (.ok tenant)) claim permits t past')
    (error : ∀ t past' fault, Looked past past' → fault ≠ .schedulerCapacityExceeded →
      (ownership lib config).Safe (.http request) post (rest (.error fault)) claim permits t past') :
    (ownership lib config).Safe (.http request) post
    ((authenticate lib headers).handle rest) claim permits w past := by
  unfold authenticate
  cases parsed : headers.apiKey with
  | none => exact error w past _ (.inl rfl) nofun
  | some parts =>
    obtain ⟨apiKey, keyPrefix⟩ := parts
    refine safe_unowned rfl Lasting.trivial.persistent True.intro nofun ?_
    intro before after c answer _ _ _ _ ran
    cases answer with
    | error fault => exact error _ _ _ (.inr ⟨keyPrefix, _, rfl⟩) nofun
    | ok row =>
      cases row with
      | none => exact error _ _ _ (.inr ⟨keyPrefix, _, rfl⟩) nofun
      | some row =>
        have found : after.db.store.findApiKey keyPrefix = some row := by
          generalize same : after.db = db at ran
          cases ran with
          | select healthy answered => exact Option.some.inj answered
        cases verified : verifyApiKey lib apiKey row.keyHash with
        | error fault =>
          change (ownership lib config).Safe _ _
            (((okOrError (verifyApiKey lib apiKey row.keyHash)).handle _).handle _) _ _ _ _
          rw [verified]
          apply error _ _ _ (.inr ⟨keyPrefix, _, rfl⟩)
          rintro rfl
          unfold verifyApiKey at verified
          split at verified
          · cases verified
          · split at verified <;> cases verified
        | ok done =>
          change (ownership lib config).Safe _ _
            (((okOrError (verifyApiKey lib apiKey row.keyHash)).handle _).handle _) _ _ _ _
          rw [verified]
          exact ok _ _ ⟨row.tenantId⟩ ⟨headers, sent, apiKey, keyPrefix, row, parsed, found, verified, rfl⟩
            (.inr ⟨keyPrefix, _, rfl⟩)

/-! ## Handlers -/

section Uses

variable {tenant : TenantContext}

theorem uses_query {allowed : Op → Prop} {statement : Statement} (permitted : allowed (.sql statement)) :
    (query statement).Uses allowed := by
  refine ⟨permitted, fun answer => ?_⟩
  cases answer <;> trivial

theorem along_query {allowed : List (Performed signature) → Op → Prop} {statement : Statement}
    {returns : List (Performed signature) → Except AppError statement.Row → Prop}
    (fine : allowed past (.sql statement)) (ok : ∀ row, returns (past ++ [⟨.sql statement, .ok row⟩]) (.ok row))
    (error : ∀ fault, returns (past ++ [⟨.sql statement, .error fault⟩]) (.error (.db fault))) :
    (query statement).Along allowed returns past := by
  refine ⟨fine, fun answer => ?_⟩
  cases answer with
  | error fault => exact error fault
  | ok row => exact ok row

theorem uses_createTenant (request : CreateTenantRequest) : (Http.createTenant request).Uses (Plain none) := by
  refine Program.uses_ite True.intro (Program.uses_bind ?_ fun _ => True.intro)
  exact Program.uses_bind (uses_query ⟨rfl, nofun⟩) fun _ => True.intro

theorem uses_createApiKey (owner : Uuid) : (Http.createApiKey lib owner).Uses (Plain none) := by
  refine Program.uses_bind ?_ fun key => Program.uses_bind (uses_query ⟨rfl, nofun⟩) fun _ => True.intro
  · apply Program.uses_bind (Program.uses_perform True.intro)
    intro keyPrefix
    apply Program.uses_bind (Program.uses_perform True.intro)
    intro secret
    apply Program.uses_bind (Program.uses_perform True.intro)
    intro salt
    refine Program.uses_bind ?_ fun _ => True.intro
    unfold okOr
    split <;> trivial

theorem uses_dbCreateTool (name : String) (inputSchema mockHandler : Value) :
    (Db.createTool lib tenant.tenantId name inputSchema mockHandler).Uses (Own tenant.tenantId) := by
  refine ⟨⟨rfl, rfl⟩, fun answer => ?_⟩
  rcases answer with (constraint | _) | row
  · cases constraint <;> trivial
  all_goals trivial

theorem uses_createTool (request : CreateToolRequest) :
    (Http.createTool lib tenant request).Uses (Own tenant.tenantId) := by
  refine Program.uses_ite True.intro (Program.uses_ite True.intro ?_)
  exact Program.uses_bind (uses_dbCreateTool ..) fun _ => True.intro

theorem uses_listTools : (Http.listTools lib tenant).Uses (Own tenant.tenantId) :=
  Program.uses_bind (Program.uses_bind (uses_query ⟨rfl, rfl⟩) fun _ => True.intro) fun _ => True.intro

theorem uses_deleteTool (toolId : Uuid) : (Http.deleteTool tenant toolId).Uses (Own tenant.tenantId) := by
  refine Program.uses_bind (Program.uses_bind (uses_query ⟨rfl, rfl⟩) fun count => ?_) fun _ => True.intro
  exact Program.uses_ite True.intro True.intro

theorem uses_getAgentToolIds (agent : AgentRecord) : (do
    let toolIds ← Db.getAgentToolIds tenant.tenantId agent.id
    return Response.agent (Http.agentResponse agent toolIds) : Act Response).Uses (Own tenant.tenantId) :=
  Program.uses_bind (uses_query ⟨rfl, rfl⟩) fun _ => True.intro

theorem uses_getAgent (agentId : Uuid) : (Http.getAgent tenant agentId).Uses (Own tenant.tenantId) := by
  refine ⟨⟨rfl, rfl⟩, fun answer => ?_⟩
  rcases answer with fault | (_ | row)
  · trivial
  · trivial
  · exact uses_getAgentToolIds (agentFromRow row)

end Uses

end AgentPlatform
