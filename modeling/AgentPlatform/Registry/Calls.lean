import AgentPlatform.Guarantees.Isolation
import AgentPlatform.Registry.Tables

/-! # Requests as calls of the registry

Each request about tools or agents is one call of the registry. The call takes effect at the statement
that answers it, or at the commit of the transaction that creates the agent, and the response is the
reply of the call.
-/

set_option autoImplicit false

namespace AgentPlatform

open Interleaving Relational Database Registry

/-! ## The points of requests -/

/-- An agent that was read, with the keys it was asked for by. -/
def foundAgent? : Performed signature → Option (Uuid × Uuid × AgentRow)
  | ⟨.sql (.getAgent tenantId agentId), .ok (some row)⟩ => some (tenantId, agentId, row)
  | _ => none

/-- An agent that was inserted, with the tenant it was inserted for. -/
def stagedAgent? : Performed signature → Option (Uuid × AgentRow)
  | ⟨.sql (.insertAgent _ tenantId _ _ _), .ok row⟩ => some (tenantId, row)
  | _ => none

namespace Request

/-- What the request asks of the registry on behalf of a tenant. -/
def call? (tenantId : Uuid) : Request → Option Call
  | .createTool _ body => some (.createTool tenantId (trim body.name) body.inputSchema body.mockHandler)
  | .listTools _ => some (.listTools tenantId)
  | .deleteTool _ toolId => some (.deleteTool tenantId toolId)
  | .createAgent _ body =>
      some (.createAgent tenantId (body.name.map trim) (trim body.systemPrompt) body.toolIds body.maxIterations)
  | .getAgent _ agentId => some (.getAgent tenantId agentId)
  | _ => none

/-- Where the call of a request takes effect. -/
def point : Request → List (Performed signature) → Performed signature → Option (Call × Reply)
  | .createTool _ _, _, ⟨.sql (.createTool tenantId name inputSchema mockHandler), .ok row⟩ =>
      some (.createTool tenantId name inputSchema mockHandler, .tool row.id (.ofRow row))
  | .createTool _ _, _,
      ⟨.sql (.createTool tenantId name inputSchema mockHandler), .error (.database .uqToolsTenantNameActive)⟩ =>
      some (.createTool tenantId name inputSchema mockHandler, .duplicateName)
  | .listTools _, _, ⟨.sql (.listTools tenantId), .ok rows⟩ =>
      some (.listTools tenantId, .tools (rows.map fun row => (row.id, .ofRow row)))
  | .deleteTool _ _, _, ⟨.sql (.deleteTool tenantId toolId), .ok count⟩ =>
      some (.deleteTool tenantId toolId, if count = 0 then .notFound else .deleted)
  | .createAgent _ body, _,
      ⟨.sql (.insertAgent _ tenantId name systemPrompt maxIterations),
          .error (.database .uqAgentsTenantNameActive)⟩ =>
      some (.createAgent tenantId name systemPrompt body.toolIds maxIterations, .duplicateName)
  | .createAgent _ body, _, ⟨.sql (.toolExists _ tenantId toolId), .ok false⟩ =>
      if body.toolIds.contains toolId then
        some (.createAgent tenantId (body.name.map trim) (trim body.systemPrompt) body.toolIds body.maxIterations,
          .notFound)
      else none
  | .createAgent _ body, past, ⟨.sql (.commit _), .ok _⟩ =>
      (past.findSome? stagedAgent?).map fun (tenantId, row) =>
        (.createAgent tenantId (body.name.map trim) (trim body.systemPrompt) body.toolIds body.maxIterations,
          .agent row.id (.ofRow row body.toolIds))
  | .getAgent _ _, _, ⟨.sql (.getAgent tenantId agentId), .ok none⟩ => some (.getAgent tenantId agentId, .notFound)
  | .getAgent _ _, past, ⟨.sql (.getAgentToolIds _ _), .ok toolIds⟩ =>
      (past.findSome? foundAgent?).map fun (tenantId, agentId, row) =>
        (.getAgent tenantId agentId, .agent row.id (.ofRow row toolIds))
  | _, _, _ => none

/-- The calls of a request that have taken effect. -/
def calls (request : Request) (past : List (Performed signature)) : List (Call × Reply) :=
  collect request.point [] past

@[simp] theorem calls_nil {request : Request} : request.calls [] = [] := rfl

@[simp] theorem calls_snoc {request : Request} {past : List (Performed signature)} {what : Performed signature} :
    request.calls (past ++ [what]) = request.calls past ++ (request.point past what).toList := by
  simp [calls, collect_append, collect]

end Request

/-- The server as an implementation of the registry. -/
@[reducible] def Registry.implementation (lib : Libraries) (config : Config) :
    Implementation (platform lib config) Registry.specification where
  state w := w.db.store.registry
  point
    | .http request, past, what => request.point past what
    | .executeRun .., _, _ => none

/-! ## Histories -/

section Histories

variable {lib : Libraries} {headers : HeaderMap} {tenantId agentId : Uuid} {request : Request}
  {past : List (Performed signature)} {what : Performed signature} {body : CreateAgentRequest} {row : AgentRow}

theorem Verified.append (verified : Verified lib headers tenantId past) (more : List (Performed signature)) :
    Verified lib headers tenantId (past ++ more) := by
  obtain ⟨apiKey, keyPrefix, row, parsed, found, rest⟩ := verified
  exact ⟨apiKey, keyPrefix, row, parsed, List.mem_append_left _ found, rest⟩

/-- The only call that has taken effect is the one that the request asks for. -/
structure Request.Took (lib : Libraries) (request : Request) (past : List (Performed signature)) (tenantId : Uuid)
    (reply : Reply) : Prop where
  verified : ∃ headers, request.headers? = some headers ∧ Verified lib headers tenantId past
  asked : ∃ call, request.call? tenantId = some call ∧ request.calls past = [(call, reply)]

theorem Request.Took.append {reply : Reply} (took : request.Took lib past tenantId reply)
    (silent : request.point past what = none) : request.Took lib (past ++ [what]) tenantId reply where
  verified := by
    obtain ⟨headers, sent, verified⟩ := took.verified
    exact ⟨headers, sent, verified.append _⟩
  asked := by
    obtain ⟨call, asked, same⟩ := took.asked
    exact ⟨call, asked, by rw [calls_snoc, silent, same]; rfl⟩

/-- At most one call has taken effect. -/
def Request.Fine (lib : Libraries) (request : Request) (past : List (Performed signature)) : Prop :=
  request.calls past = [] ∨ ∃ tenantId reply, request.Took lib past tenantId reply

/-- Whose tools the request may read: those of the agent it has found or created. -/
def Request.Reads (lib : Libraries) (past : List (Performed signature)) (tenantId agentId : Uuid) : Request → Prop
  | .getAgent _ _ => ∃ wanted row, past.findSome? foundAgent? = some (tenantId, wanted, row) ∧ row.id = agentId
  | .createAgent headers body => ∃ row, past.findSome? stagedAgent? = some (tenantId, row) ∧ row.id = agentId ∧
      (Request.createAgent headers body).Took lib past tenantId (.agent row.id (.ofRow row body.toolIds))
  | _ => False

/-- What a request about the registry does next. -/
structure Request.Careful (lib : Libraries) (request : Request)
    (past : List (Performed signature)) (op : Op) : Prop where
  fine : ∀ answer, request.Fine lib (past ++ [⟨op, answer⟩])
  reads : ∀ tenantId agentId, op = .sql (.getAgentToolIds tenantId agentId) → request.Reads lib past tenantId agentId

theorem Request.Careful.silent {op : Op} (quiet : request.calls past = [])
    (silent : ∀ answer, request.point past ⟨op, answer⟩ = none)
    (other : ∀ tenantId agentId, op ≠ .sql (.getAgentToolIds tenantId agentId)) : request.Careful lib past op where
  fine answer := .inl (by rw [calls_snoc, silent answer, quiet]; rfl)
  reads tenantId agentId same := absurd same (other tenantId agentId)

/-- A tool as the responses show it, with the JSON that is read from its columns. -/
def Registry.Tool.response (lib : Libraries) (id : Uuid) (tool : Registry.Tool) : ToolResponse :=
  ⟨id, tool.name, lib.decodeJson tool.inputSchema, lib.decodeJson tool.mockHandler, tool.createdAt⟩

/-- The reply as it is sent; the tools of an agent are read back after its creation. -/
def Registry.Reply.Sent (lib : Libraries) (request : Request) (past : List (Performed signature)) : Reply →
    Response → Prop
  | .tool id entry, .tool response => response = entry.response lib id
  | .tools entries, .tools response => response = entries.map fun (id, entry) => entry.response lib id
  | .deleted, .deleted => True
  | .agent id entry, .agent response =>
      response = ⟨id, entry.name, entry.systemPrompt, response.toolIds, entry.maxIterations, entry.createdAt⟩ ∧
        ((response.toolIds : Multiset Uuid) = entry.toolIds ∨
          ∃ tenantId before, request.Took lib before tenantId (.agent id entry) ∧
          past = before ++ [⟨.sql (.getAgentToolIds tenantId id), .ok response.toolIds⟩])
  | _, _ => False

/-- What the request has done when it returns. -/
inductive Request.Concluded (lib : Libraries) (request : Request)
    (past : List (Performed signature)) : Except AppError Response → Prop
  | answered {tenantId : Uuid} {reply : Reply} {response : Response} (took : request.Took lib past tenantId reply)
      (sent : reply.Sent lib request past response) : Concluded lib request past (.ok response)
  | duplicateName {tenantId : Uuid}
      (took : request.Took lib past tenantId .duplicateName) : Concluded lib request past (.error .duplicateName)
  | notFound {tenantId : Uuid}
      (took : request.Took lib past tenantId .notFound) : Concluded lib request past (.error .notFound)
  | failed {fault : AppError} (quiet : request.calls past = []) (named : fault ≠ .duplicateName)
      (known : fault ≠ .notFound) : Concluded lib request past (.error fault)
  | unread {tenantId id : Uuid} {agent : Registry.Agent} {error : SqlxError}
      (creates : ∃ headers body, request = .createAgent headers body)
      (took : request.Took lib past tenantId (.agent id agent)) : Concluded lib request past (.error (.db error))

/-- Before the call of an authenticated request. -/
structure Request.Waits (lib : Libraries) (request : Request) (tenantId : Uuid)
    (past : List (Performed signature)) : Prop where
  verified : ∃ headers, request.headers? = some headers ∧ Verified lib headers tenantId past
  quiet : request.calls past = []

theorem Request.Waits.append (waits : request.Waits lib tenantId past) (silent : request.point past what = none) :
    request.Waits lib tenantId (past ++ [what]) where
  verified := by
    obtain ⟨headers, sent, verified⟩ := waits.verified
    exact ⟨headers, sent, verified.append _⟩
  quiet := by rw [calls_snoc, silent, waits.quiet]; rfl

theorem Request.Waits.took {call : Call} {reply : Reply} (waits : request.Waits lib tenantId past)
    (asked : request.call? tenantId = some call) (point : request.point past what = some (call, reply)) :
    request.Took lib (past ++ [what]) tenantId reply where
  verified := by
    obtain ⟨headers, sent, verified⟩ := waits.verified
    exact ⟨headers, sent, verified.append _⟩
  asked := ⟨call, asked, by rw [calls_snoc, point, waits.quiet]; rfl⟩

/-- The rule for `authenticate`. -/
theorem along_authenticated {α : Type} {rest : TenantContext → Act α}
    {returns : List (Performed signature) → Except AppError α → Prop} (sent : request.headers? = some headers)
    (silent : ∀ past keyPrefix answer, request.point past ⟨.sql (.findActiveApiKeyByPrefix keyPrefix), answer⟩ = none)
    (failed : ∀ past fault, request.calls past = [] → fault ≠ .duplicateName → fault ≠ .notFound →
      returns past (.error fault)) (later : ∀ past tenant, request.Waits lib tenant.tenantId past →
      (past = [] ∨ ∃ keyPrefix answer, past = [⟨.sql (.findActiveApiKeyByPrefix keyPrefix), answer⟩]) →
      (rest tenant).Along (request.Careful lib) returns past) :
    (authenticate lib headers >>= rest).Along (request.Careful lib) returns [] := by
  unfold authenticate
  cases parsed : headers.apiKey with
  | none => exact failed [] _ rfl (by rintro ⟨⟩) (by rintro ⟨⟩)
  | some parts =>
    obtain ⟨apiKey, keyPrefix⟩ := parts
    refine ⟨.silent rfl (silent _ _) (by rintro _ _ ⟨⟩), fun answer => ?_⟩
    have quiet : request.calls [⟨.sql (.findActiveApiKeyByPrefix keyPrefix), answer⟩] = [] := by
      rw [← List.nil_append [_], Request.calls_snoc, silent]
      rfl
    rcases answer with fault | _ | row
    · exact failed _ _ quiet (by rintro ⟨⟩) (by rintro ⟨⟩)
    · exact failed _ _ quiet (by rintro ⟨⟩) (by rintro ⟨⟩)
    change Program.Along _ _ (((okOrError (verifyApiKey lib apiKey row.keyHash)).handle _).handle _) _
    cases verified : verifyApiKey lib apiKey row.keyHash with
    | error fault =>
      apply failed _ _ quiet
      · rintro rfl
        unfold verifyApiKey at verified
        split_ifs at verified <;> cases verified
      · rintro rfl
        unfold verifyApiKey at verified
        split_ifs at verified <;> cases verified
    | ok done =>
      refine later _ ⟨row.tenantId⟩ ⟨⟨headers, sent, apiKey, keyPrefix, row, parsed, ?_, verified, rfl⟩, quiet⟩
        (.inr ⟨keyPrefix, _, rfl⟩)
      exact List.mem_singleton_self _

/-- An operation that may decide the call of the request. -/
theorem Request.Waits.careful {op : Op} (waits : request.Waits lib tenantId past)
    (other : ∀ tenantId agentId, op ≠ .sql (.getAgentToolIds tenantId agentId))
    (points : ∀ answer, request.point past ⟨op, answer⟩ = none ∨
      ∃ call reply, request.call? tenantId = some call ∧ request.point past ⟨op, answer⟩ = some (call, reply)) :
    request.Careful lib past op where
  fine answer := by
    rcases points answer with silent | ⟨call, reply, asked, point⟩
    · exact .inl (waits.append silent).quiet
    · exact .inr ⟨tenantId, reply, waits.took asked point⟩
  reads tenantId agentId same := absurd same (other tenantId agentId)

theorem Request.Waits.failed {error : SqlxError} (waits : request.Waits lib tenantId past) :
    request.Concluded lib past (.error (.db error)) := .failed waits.quiet (by rintro ⟨⟩) (by rintro ⟨⟩)

/-! ## Tools -/

theorem careful_createTool {body : CreateToolRequest} : ((Request.createTool headers body).handler lib).Along
    ((Request.createTool headers body).Careful lib) ((Request.createTool headers body).Concluded lib) [] := by
  apply along_authenticated rfl (fun _ _ _ => rfl) fun _ _ quiet named known => .failed quiet named known
  intro past tenant waits _
  change (Http.createTool lib tenant body).Along _ _ _
  unfold Http.createTool
  split
  · exact .failed waits.quiet (by rintro ⟨⟩) (by rintro ⟨⟩)
  split
  · exact .failed waits.quiet (by rintro ⟨⟩) (by rintro ⟨⟩)
  refine ⟨waits.careful (by rintro _ _ ⟨⟩) fun answer => ?_, fun answer => ?_⟩
  · rcases answer with (constraint | _) | row
    · cases constraint <;> first | exact .inl rfl | exact .inr ⟨_, _, rfl, rfl⟩
    all_goals first | exact .inl rfl | exact .inr ⟨_, _, rfl, rfl⟩
  · rcases answer with (constraint | _) | row
    · cases constraint <;> first | exact (waits.append rfl).failed | exact .duplicateName (waits.took rfl rfl)
    all_goals first | exact (waits.append rfl).failed | exact .answered (waits.took rfl rfl) rfl

theorem careful_listTools : ((Request.listTools headers).handler lib).Along
    ((Request.listTools headers).Careful lib) ((Request.listTools headers).Concluded lib) [] := by
  apply along_authenticated rfl (fun _ _ _ => rfl) fun _ _ quiet named known => .failed quiet named known
  intro past tenant waits _
  refine ⟨waits.careful (by rintro _ _ ⟨⟩) fun answer => ?_, fun answer => ?_⟩
  · cases answer with
    | error fault => exact .inl rfl
    | ok rows => exact .inr ⟨_, _, rfl, rfl⟩
  · cases answer with
    | error fault => exact (waits.append rfl).failed
    | ok rows =>
      refine .answered (waits.took rfl rfl) ?_
      simp only [Reply.Sent, List.map_map]
      rfl

theorem careful_deleteTool {toolId : Uuid} : ((Request.deleteTool headers toolId).handler lib).Along
    ((Request.deleteTool headers toolId).Careful lib) ((Request.deleteTool headers toolId).Concluded lib) [] := by
  apply along_authenticated rfl (fun _ _ _ => rfl) fun _ _ quiet named known => .failed quiet named known
  intro past tenant waits _
  refine ⟨waits.careful (by rintro _ _ ⟨⟩) fun answer => ?_, fun answer => ?_⟩
  · cases answer with
    | error fault => exact .inl rfl
    | ok count => exact .inr ⟨_, _, rfl, rfl⟩
  · cases answer with
    | error fault => exact (waits.append rfl).failed
    | ok count =>
      cases count with
      | zero => exact .notFound (waits.took rfl rfl)
      | succ count => exact .answered (waits.took rfl rfl) True.intro

/-! ## Agents -/

theorem careful_getAgent : ((Request.getAgent headers agentId).handler lib).Along
    ((Request.getAgent headers agentId).Careful lib) ((Request.getAgent headers agentId).Concluded lib) [] := by
  apply along_authenticated rfl (fun _ _ _ => rfl) fun _ _ quiet named known => .failed quiet named known
  intro past tenant waits looked
  have unfound : past.findSome? foundAgent? = none := by
    rcases looked with rfl | ⟨keyPrefix, answer, rfl⟩ <;> rfl
  refine ⟨waits.careful (by rintro _ _ ⟨⟩) fun answer => ?_, fun answer => ?_⟩
  · rcases answer with fault | _ | row
    · exact .inl rfl
    · exact .inr ⟨_, _, rfl, rfl⟩
    · exact .inl rfl
  rcases answer with fault | _ | row
  · exact (waits.append rfl).failed
  · exact .notFound (waits.took rfl rfl)
  have found : (past ++
      [(⟨.sql (.getAgent tenant.tenantId agentId), .ok (some row)⟩ : Performed signature)]).findSome? foundAgent? =
      some (tenant.tenantId, agentId, row) := by
    rw [List.findSome?_append, unfound]
    rfl
  have waits : (Request.getAgent headers agentId).Waits lib tenant.tenantId
      (past ++ [⟨.sql (.getAgent tenant.tenantId agentId), .ok (some row)⟩]) := waits.append rfl
  generalize past ++ [_] = past at found waits
  have point (toolIds : List Uuid) : (Request.getAgent headers agentId).point past
      ⟨.sql (.getAgentToolIds tenant.tenantId row.id), .ok toolIds⟩ =
        some (.getAgent tenant.tenantId agentId, .agent row.id (.ofRow row toolIds)) := by
    simp only [Request.point, found, Option.map_some]
  refine ⟨⟨fun answer => ?_, ?_⟩, fun answer => ?_⟩
  · cases answer with
    | error fault => exact .inl (waits.append rfl).quiet
    | ok toolIds => exact .inr ⟨_, _, waits.took rfl (point toolIds)⟩
  · rintro tenantId other ⟨⟩
    exact ⟨agentId, row, found, rfl⟩
  · cases answer with
    | error fault => exact (waits.append rfl).failed
    | ok toolIds => exact .answered (waits.took rfl (point toolIds)) ⟨rfl, .inl rfl⟩

/-- The transaction of the request has inserted its agent. -/
structure Staged (lib : Libraries) (headers : HeaderMap) (body : CreateAgentRequest) (tenantId : Uuid)
    (row : AgentRow) (past : List (Performed signature)) : Prop where
  waits : (Request.createAgent headers body).Waits lib tenantId past
  staged : past.findSome? stagedAgent? = some (tenantId, row)

theorem Staged.append (staged : Staged lib headers body tenantId row past)
    (silent : (Request.createAgent headers body).point past what = none) :
    Staged lib headers body tenantId row (past ++ [what]) where
  waits := staged.waits.append silent
  staged := by rw [List.findSome?_append, staged.staged]; rfl

/-- After a part of the transaction. -/
def Stages (lib : Libraries) (headers : HeaderMap) (body : CreateAgentRequest) (tenantId : Uuid) (row : AgentRow)
    (past : List (Performed signature)) : Except AppError Unit → Prop
  | .ok _ => Staged lib headers body tenantId row past
  | .error fault => (Request.createAgent headers body).Concluded lib past (.error fault)

theorem along_bindTool {tx toolId : Uuid} (wanted : toolId ∈ body.toolIds)
    (staged : Staged lib headers body tenantId row past) :
    (Db.bindTool tx tenantId agentId toolId).Along ((Request.createAgent headers body).Careful lib)
      (Stages lib headers body tenantId row) past := by
  have missing : (Request.createAgent headers body).point past ⟨.sql (.toolExists tx tenantId toolId), .ok false⟩ =
      some (.createAgent tenantId (body.name.map trim) (trim body.systemPrompt) body.toolIds body.maxIterations,
        .notFound) := if_pos (List.contains_iff_mem.mpr wanted)
  refine ⟨staged.waits.careful (by rintro _ _ ⟨⟩) fun answer => ?_, fun answer => ?_⟩
  · rcases answer with fault | _ | _
    · exact .inl rfl
    · exact .inr ⟨_, _, rfl, missing⟩
    · exact .inl rfl
  rcases answer with fault | _ | _
  · exact (staged.waits.append rfl).failed
  · exact .notFound (staged.waits.took rfl missing)
  have staged : Staged lib headers body tenantId row (past ++ [⟨.sql (.toolExists tx tenantId toolId), .ok true⟩]) :=
    staged.append rfl
  refine ⟨.silent staged.waits.quiet (fun _ => rfl) (by rintro _ _ ⟨⟩), fun answer => ?_⟩
  cases answer with
  | error fault => exact (staged.waits.append rfl).failed
  | ok done => exact staged.append rfl

theorem along_bindTools {tx : Uuid} {toolIds : List Uuid} (wanted : toolIds ⊆ body.toolIds)
    (staged : Staged lib headers body tenantId row past) :
    (Db.bindTools tx tenantId agentId toolIds).Along ((Request.createAgent headers body).Careful lib)
      (Stages lib headers body tenantId row) past := by
  induction toolIds generalizing past with
  | nil => exact staged
  | cons toolId rest ih =>
    obtain ⟨first, others⟩ := List.cons_subset.mp wanted
    exact Program.Along.bind _ (along_bindTool first staged)
      (fun _ _ staged => ih others staged) fun _ _ concluded => concluded

/-- After `create_agent` of `db.rs`. -/
def Commits (lib : Libraries) (headers : HeaderMap) (body : CreateAgentRequest) (tenantId : Uuid)
    (past : List (Performed signature)) : Except AppError AgentRecord → Prop
  | .ok record => ∃ row, record = agentFromRow row ∧ past.findSome? stagedAgent? = some (tenantId, row) ∧
      (Request.createAgent headers body).Took lib past tenantId (.agent row.id (.ofRow row body.toolIds))
  | .error fault => (Request.createAgent headers body).Concluded lib past (.error fault)

theorem Request.Concluded.append {fault : AppError} (concluded : request.Concluded lib past (.error fault))
    (silent : request.point past what = none) : request.Concluded lib (past ++ [what]) (.error fault) := by
  cases concluded with
  | duplicateName took => exact .duplicateName (took.append silent)
  | notFound took => exact .notFound (took.append silent)
  | failed quiet named known => exact .failed (by rw [calls_snoc, silent, quiet]; rfl) named known
  | unread creates took => exact .unread creates (took.append silent)

theorem Request.Concluded.fine {result : Except AppError Response} (concluded : request.Concluded lib past result) :
    request.Fine lib past := by
  cases concluded with
  | failed quiet named known => exact .inl quiet
  | answered took sent => exact .inr ⟨_, _, took⟩
  | duplicateName took => exact .inr ⟨_, _, took⟩
  | notFound took => exact .inr ⟨_, _, took⟩
  | unread creates took => exact .inr ⟨_, _, took⟩

theorem along_dbCreateAgent (waits : (Request.createAgent headers body).Waits lib tenantId past)
    (unstaged : past.findSome? stagedAgent? = none) :
    (Db.createAgent tenantId (body.name.map trim) (trim body.systemPrompt) body.toolIds body.maxIterations).Along
      ((Request.createAgent headers body).Careful lib) (Commits lib headers body tenantId) past := by
  refine ⟨.silent waits.quiet (fun _ => rfl) (by rintro _ _ ⟨⟩), fun answer => ?_⟩
  rcases answer with fault | tx
  · exact (waits.append rfl).failed
  have unstaged : (past ++ [(⟨.sql .begin, .ok tx⟩ : Performed signature)]).findSome? stagedAgent? = none := by
    rw [List.findSome?_append, unstaged]
    rfl
  have waits : (Request.createAgent headers body).Waits lib tenantId (past ++ [⟨.sql .begin, .ok tx⟩]) :=
    waits.append rfl
  generalize past ++ [_] = past at unstaged waits
  apply Program.Along.handle (Commits lib headers body tenantId)
  · refine ⟨waits.careful (by rintro _ _ ⟨⟩) fun answer => ?_, fun answer => ?_⟩
    · rcases answer with (constraint | _) | row
      · cases constraint <;> first | exact .inl rfl | exact .inr ⟨_, _, rfl, rfl⟩
      all_goals exact .inl rfl
    rcases answer with (constraint | _) | row
    · cases constraint <;> first | exact (waits.append rfl).failed | exact .duplicateName (waits.took rfl rfl)
    all_goals try exact (waits.append rfl).failed
    have staged : Staged lib headers body tenantId row (past ++ [⟨.sql (.insertAgent tx tenantId (body.name.map trim)
        (trim body.systemPrompt) body.maxIterations), .ok row⟩]) :=
      ⟨waits.append rfl, by rw [List.findSome?_append, unstaged]; rfl⟩
    generalize past ++ [_] = past at staged
    change (do
      Db.bindTools tx tenantId row.id body.toolIds
      query (.commit tx)
      return agentFromRow row : Act AgentRecord).Along _ _ _
    refine Program.Along.bind _ (along_bindTools (List.Subset.refl _) staged)
      (fun past _ staged => ?_) fun _ _ concluded => concluded
    have staged : Staged lib headers body tenantId row past := staged
    have point : (Request.createAgent headers body).point past ⟨.sql (.commit tx), .ok ()⟩ =
        some (.createAgent tenantId (body.name.map trim) (trim body.systemPrompt) body.toolIds body.maxIterations,
          .agent row.id (.ofRow row body.toolIds)) := by
      simp only [Request.point, staged.staged, Option.map_some]
    refine ⟨staged.waits.careful (by rintro _ _ ⟨⟩) fun answer => ?_, fun answer => ?_⟩
    · cases answer with
      | error fault => exact .inl rfl
      | ok done => exact .inr ⟨_, _, rfl, point⟩
    · cases answer with
      | error fault => exact (staged.waits.append rfl).failed
      | ok done => exact ⟨row, rfl, by rw [List.findSome?_append, staged.staged]; rfl, staged.waits.took rfl point⟩
  · rintro past (fault | record) committed
    · have concluded : (Request.createAgent headers body).Concluded lib past (.error fault) := committed
      exact ⟨⟨fun answer => (concluded.append rfl).fine, by rintro _ _ ⟨⟩⟩, fun _ => concluded.append rfl⟩
    · exact committed

theorem careful_createAgent : ((Request.createAgent headers body).handler lib).Along
    ((Request.createAgent headers body).Careful lib) ((Request.createAgent headers body).Concluded lib) [] := by
  apply along_authenticated rfl (fun _ _ _ => rfl) fun _ _ quiet named known => .failed quiet named known
  intro past tenant waits looked
  have unstaged : past.findSome? stagedAgent? = none := by
    rcases looked with rfl | ⟨keyPrefix, answer, rfl⟩ <;> rfl
  change (Http.createAgent tenant body).Along _ _ _
  unfold Http.createAgent
  split
  · exact .failed waits.quiet (by rintro ⟨⟩) (by rintro ⟨⟩)
  apply Program.Along.bind _ (along_dbCreateAgent waits unstaged)
  · rintro past _ ⟨row, rfl, staged, took⟩
    refine ⟨⟨fun answer => .inr ⟨_, _, took.append rfl⟩, ?_⟩, fun answer => ?_⟩
    · rintro tenantId agentId ⟨⟩
      exact ⟨row, staged, rfl, took⟩
    · cases answer with
      | error fault => exact .unread ⟨headers, body, rfl⟩ (took.append rfl)
      | ok toolIds =>
        exact .answered (took.append rfl) ⟨rfl, .inr ⟨tenant.tenantId, past, took, rfl⟩⟩
  · exact fun _ _ concluded => concluded

/-- Every request about tools or agents is one call. -/
theorem careful_registry (about : (request.call? tenantId).isSome) : (request.handler lib).Along (request.Careful lib)
    (request.Concluded lib) [] := by
  cases request with
  | createTool headers body => exact careful_createTool
  | listTools headers => exact careful_listTools
  | deleteTool headers toolId => exact careful_deleteTool
  | createAgent headers body => exact careful_createAgent
  | getAgent headers agentId => exact careful_getAgent
  | _ => cases about

end Histories

end AgentPlatform
