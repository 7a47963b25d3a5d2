import AgentPlatform.Database.View
import AgentPlatform.Interleaving.Comparison
import AgentPlatform.Ownership.Surrounded
import AgentPlatform.Ownership.Usage

/-! # One tenant in two executions

The same request or task is executed twice, on databases where one tenant sees the same. Whatever the rows of
other tenants are, both executions get the same answers, so they issue the same operations and leave the same view.
-/

set_option autoImplicit false

namespace AgentPlatform

open Interleaving Relational Database

/-- The operation generates the id of a row. -/
def Op.generates : Op → Bool
  | .sql statement => statement.generates
  | _ => false

/-- The operation adds a row with a foreign key to its tenant. -/
def Op.refersToTenant : Op → Bool
  | .sql statement => statement.refersToTenant
  | _ => false

/-- The operation concerns this tenant only, and it is executed within this transaction. -/
def Op.WithinView (tenantId : Uuid) (view? : Option Uuid) : Op → Prop
  | .sql statement => Database.Within tenantId view? statement
  | .rollback tx => view? = some tx
  | .tryAcquireOwned _ | .getTenantSemaphore _ | .dropPermit _ | .spawn .. => view? = none
  | .sampleAlphanumeric _ | .generateSalt => False

/-- The environment resolves both operations in the same way: the same failures, generated ids, times, orders of ties
and characters, and the same outcomes of the attempts to acquire a permit. -/
def SameInputs : (op : Op) → Choice × op.Answer → Choice × op.Answer → Prop
  | .tryAcquireOwned _, (c, acquired), (c', acquired') => c = c' ∧ acquired = acquired'
  | _, (c, _), (c', _) => c = c'

/-- The tenant sees the same in both databases. -/
def SameView (tenantId : Uuid) (view? : Option Uuid) (w w' : World) : Prop :=
  w.db.view tenantId view? = w'.db.view tenantId view?

/-- Nobody else touches the rows of the tenant, and generated ids are new. -/
def apart (lib : Libraries) (config : Config) (tenantId : Uuid) (Q : Store → Prop) :
    Surroundings (platform lib config) where
  sound w := Valid lib w ∧ Q w.db.store
  rely op s t := t.db.store.ofTenant tenantId = s.db.store.ofTenant tenantId ∧
    ∀ tx, op.Names (.transaction tx) → SameTransaction tx s.db t.db
  grants op c w := op.generates = true → ¬ w.db.UsesId c.id

variable {lib : Libraries} {config : Config} {tenantId agentId runId : Uuid} {view? : Option Uuid} {Q : Store → Prop}
  {s s' : World} {ε α : Type}

theorem Op.WithinView.names {op : Op} {tx : Uuid} (within : op.WithinView tenantId (some tx)) :
    op.Names (.transaction tx) := by
  cases op with
  | sql statement => exact ⟨tx, within.1, rfl⟩
  | rollback handle => exact congrArg Token.transaction (Option.some.inj within)
  | sampleAlphanumeric | generateSalt => exact within.elim
  | _ => cases within

theorem SameInputs.choice {op : Op} {c c' : Choice} {answer answer' : op.Answer}
    (same : SameInputs op (c, answer) (c', answer')) : c = c' := by
  cases op with
  | tryAcquireOwned semaphore => exact same.1
  | _ => exact same

/-- What others do is not seen by the tenant. -/
theorem sameView_of_rely {op : Op} (within : op.WithinView tenantId view?)
    (moved : (apart lib config tenantId Q).rely op s s') : SameView tenantId view? s' s := by
  apply view_congr moved.1
  rintro tx rfl
  exact moved.2 tx within.names

/-- Operations within the view have the same answers, and lead to the same view. -/
theorem sameView_of_exec {op : Op} {c : Choice} {t t' : World} {owned owned' : List SemaphoreRef}
    {effect effect' : Effect signature (List SemaphoreRef) World Task op} (within : op.WithinView tenantId view?)
    (same : SameView tenantId view? t t') (fresh : op.generates = true → ¬ t.db.UsesId c.id ∧ ¬ t'.db.UsesId c.id)
    (lives : op.refersToTenant = true → (∃ tenant ∈ t.db.store.tenants, tenant.id = tenantId) ∧
      ∃ tenant ∈ t'.db.store.tenants, tenant.id = tenantId)
    (ran : op.exec config Task.executeRun c owned t = some effect)
    (ran' : op.exec config Task.executeRun c owned' t' = some effect')
    (pair : SameInputs op (c, effect.answer) (c, effect'.answer)) :
    effect.answer = effect'.answer ∧ SameView tenantId view? effect.shared effect'.shared := by
  cases op with
  | sql statement =>
    obtain ⟨⟨answer, db⟩, executed, rfl⟩ := Option.map_eq_some_iff.mp ran
    obtain ⟨⟨answer', db'⟩, executed', rfl⟩ := Option.map_eq_some_iff.mp ran'
    have seen := execute_view within (fun generates => (fresh generates).1) (fun refers => (lives refers).1) executed
    have seen' := execute_view within (fun generates => (fresh generates).2)
        (fun refers => (lives refers).2) executed'
    rw [show t.db.view tenantId view? = t'.db.view tenantId view? from same] at seen
    exact Prod.ext_iff.mp (Option.some.inj (seen.symm.trans seen'))
  | rollback tx =>
    cases ran
    cases ran'
    obtain rfl : view? = some tx := within
    refine ⟨rfl, ?_⟩
    have rolled {db : Database} : (db.rollback tx).view tenantId (some tx) = _ := rollback_view
    exact rolled.trans ((congrArg (Database.rollback · tx) same).trans rolled.symm)
  | tryAcquireOwned semaphore =>
    refine ⟨pair.2, ?_⟩
    have kept {t : World} {owned : List SemaphoreRef}
        {effect : Effect signature (List SemaphoreRef) World Task (.tryAcquireOwned semaphore)}
        (ran : (Op.tryAcquireOwned semaphore).exec config Task.executeRun c owned t = some effect) :
        effect.shared.db = t.db := by
      simp only [Op.exec] at ran
      split at ran <;> cases ran <;> rfl
    rw [SameView, kept ran, kept ran']
    exact same
  | dropPermit semaphore =>
    refine ⟨rfl, ?_⟩
    have kept {t : World} {owned : List SemaphoreRef}
        {effect : Effect signature (List SemaphoreRef) World Task (.dropPermit semaphore)}
        (ran : (Op.dropPermit semaphore).exec config Task.executeRun c owned t = some effect) :
        effect.shared.db = t.db := by
      simp only [Op.exec] at ran
      split at ran <;> cases ran <;> rfl
    rw [SameView, kept ran, kept ran']
    exact same
  | getTenantSemaphore owner | spawn owner run =>
    cases ran
    cases ran'
    exact ⟨rfl, same⟩
  | sampleAlphanumeric | generateSalt => exact within.elim

/-- A program that stays within the view returns the same and leaves the same view. -/
theorem couples_within {kind : Op → Prop} {program : Program signature ε α} (uses : program.Uses kind)
    (within : ∀ op, kind op → op.WithinView tenantId view?)
    (lives : ∀ op w, kind op → op.refersToTenant = true → Valid lib w → Q w.db.store →
      ∃ tenant ∈ w.db.store.tenants, tenant.id = tenantId) (now : SameView tenantId view? s s') :
    (apart lib config tenantId Q).Couples SameInputs (Alike (SameView tenantId view?)) program program s s' := by
  have agrees : program.Agrees kind fun _ answer answer' => answer = answer' :=
    Program.Uses.agrees uses (fun _ kind => kind) fun _ _ _ _ same => same
  refine Surroundings.Couples.of_agrees agrees now ?_ ?_ ?_
  · exact fun op s t s' permitted moved same => (sameView_of_rely (within op permitted) moved).trans same
  · exact fun op s s' t' permitted moved same => same.trans (sameView_of_rely (within op permitted) moved).symm
  · intro op t t' c c' owned owned' effect effect' permitted same sound sound' granted granted' ran ran' pair
    obtain rfl := pair.choice
    exact sameView_of_exec (within op permitted) same (fun generates => ⟨granted generates, granted' generates⟩)
      (fun refers =>
        ⟨lives op t permitted refers sound.1 sound.2, lives op t' permitted refers sound'.1 sound'.2⟩) ran ran' pair

/-! ## Transactions -/

/-- Outside transactions the tenant sees its committed rows only. -/
theorem sameView_none_of_rely {op : Op} (moved : (apart lib config tenantId Q).rely op s s') :
    SameView tenantId none s' s :=
  view_congr moved.1 (by rintro _ ⟨⟩)

/-- The rule for a transaction: it has the same handle, and nothing is inserted yet. -/
theorem couples_transaction {body : Uuid → Act α}
    (inner : ∀ tx s s', SameView tenantId (some tx) s s' →
      (apart lib config tenantId Q).Couples SameInputs (Alike (SameView tenantId (some tx))) (body tx) (body tx) s s')
    (now : SameView tenantId none s s') :
    (apart lib config tenantId Q).Couples SameInputs (Alike (SameView tenantId none)) (query .begin >>= body)
    (query .begin >>= body) s s' := by
  refine Surroundings.Couples.call now (fun _ _ _ moved same => (sameView_none_of_rely moved).trans same)
    (fun _ _ _ moved same => same.trans (sameView_none_of_rely moved).symm) ?_
  intro t t' c c' owned owned' effect effect' same sound sound' _ _ ran ran' pair
  obtain rfl : c = c' := pair
  obtain ⟨⟨answer, db⟩, executed, rfl⟩ := Option.map_eq_some_iff.mp ran
  obtain ⟨⟨answer', db'⟩, executed', rfl⟩ := Option.map_eq_some_iff.mp ran'
  by_cases failing : c.fail = true
  · rw [execute_failing failing] at executed executed'
    cases executed
    cases executed'
    exact ⟨_, rfl, rfl, same⟩
  · simp only [execute, if_neg failing, Database.begin] at executed executed'
    split_ifs at executed executed' with used used'
    cases executed
    cases executed'
    refine (inner c.id _ _ ?_).mono ?_
    · have opened := @view_begin t.db c tenantId sound.1.wellFormed.pending (Option.not_isSome_iff_eq_none.mp used)
      have opened' :=
        @view_begin t'.db c tenantId sound'.1.wellFormed.pending (Option.not_isSome_iff_eq_none.mp used')
      rw [SameView] at same
      rw [same] at opened
      exact opened.trans opened'.symm
    · rintro result result' s s' ⟨rfl, same⟩
      exact ⟨rfl, view_none_congr same⟩

/-- The operation names this tenant within its transaction. -/
theorem within_of_names {op : Op} {tx : Uuid} (onBehalf : op.OnBehalf tenantId) (names : op.Names (.transaction tx)) :
    op.WithinView tenantId (some tx) := by
  cases op with
  | sql statement =>
    obtain ⟨tx', inside, same⟩ := names
    cases same
    refine ⟨inside, ?_⟩
    cases statement with
    | commit tx => exact .inr ⟨tx, rfl⟩
    | begin => cases inside
    | _ => exact .inl onBehalf
  | rollback handle => exact congrArg some (Token.transaction.inj names)
  | _ => cases names

/-! ## Requests -/

section Requests

variable {headers : HeaderMap} (admits : ∀ s, Q s → s.authenticates lib headers tenantId)
include admits

private theorem lives_of_admits {kind : Op → Prop} (op : Op) (w : World) (_ : kind op) (_ : op.refersToTenant = true)
    (valid : Valid lib w) (known : Q w.db.store) : ∃ tenant ∈ w.db.store.tenants, tenant.id = tenantId :=
  Store.authenticates_tenant valid.wellFormed.accounts (admits _ known)

theorem couples_own {program : Act α} (uses : program.Uses (Own tenantId)) (now : SameView tenantId none s s') :
    (apart lib config tenantId Q).Couples SameInputs (Alike (SameView tenantId none)) program program s s' := by
  refine couples_within uses (fun op mine => ?_) (lives_of_admits admits) now
  cases op with
  | sql statement =>
    refine ⟨?_, .inl mine.2⟩
    cases statement <;> first | rfl | cases mine.1
  | _ => cases mine

theorem couples_begin {body : Uuid → Act α} {kind : Op → Prop} (onBehalf : ∀ op, kind op → op.OnBehalf tenantId)
    (uses : ∀ tx, (body tx).Uses fun op : Op => kind op ∧ op.Names (.transaction tx))
    (now : SameView tenantId none s s') :
    (apart lib config tenantId Q).Couples SameInputs (Alike (SameView tenantId none)) (query .begin >>= body)
      (query .begin >>= body) s s' := by
  refine couples_transaction (fun tx s s' inside => ?_) now
  exact couples_within (uses tx) (fun op names => within_of_names (onBehalf op names.1) names.2)
    (lives_of_admits admits) inside

theorem couples_starts {program : Act α} (uses : program.Uses (Op.Starts tenantId runId))
    (now : SameView tenantId none s s') :
    (apart lib config tenantId Q).Couples SameInputs (Alike (SameView tenantId none)) program program s s' := by
  refine couples_within uses (fun op starts => ?_) (lives_of_admits admits) now
  cases op with
  | sql statement =>
    cases statement with
    | appendEvent | markRunFailed => exact ⟨rfl, .inl (congrArg some starts.1)⟩
    | _ => exact starts.elim
  | spawn | getTenantSemaphore | tryAcquireOwned | dropPermit => rfl
  | _ => exact starts.elim

/-- Whatever an authenticated request does, its answer and the rows of its tenant do not depend on other rows. -/
theorem couples_onBehalf {request : Request} (sent : request.headers? = some headers)
    (now : SameView tenantId none s s') : (apart lib config tenantId Q).Couples SameInputs
    (Alike (SameView tenantId none)) (request.onBehalf lib ⟨tenantId⟩)
      (request.onBehalf lib ⟨tenantId⟩) s s' := by
  cases request with
  | createTenant body => cases sent
  | createApiKey owner => cases sent
  | createTool _ body => exact couples_own admits (uses_createTool body) now
  | listTools _ => exact couples_own admits uses_listTools now
  | deleteTool _ toolId => exact couples_own admits (uses_deleteTool toolId) now
  | createAgent _ body =>
    simp only [Request.onBehalf, Http.createAgent]
    split
    · exact ⟨_, rfl, rfl, now⟩
    obtain ⟨transaction, begins, uses⟩ := @dbCreateAgent_eq_begin tenantId (body.name.map trim)
      (trim body.systemPrompt) body.toolIds body.maxIterations
    rw [begins]
    refine Surroundings.Couples.bind (couples_begin admits (fun op builds => builds.handled.1) uses now)
      (fun agent s s' same => ?_) fun _ _ _ same => ⟨rfl, same⟩
    exact couples_own admits (uses_getAgentToolIds agent) same
  | getAgent _ agentId => exact couples_own admits (uses_getAgent agentId) now
  | startRun given agentId body =>
    have found : (Db.getAgent tenantId agentId).Uses (Own tenantId) :=
      Program.uses_bind (uses_query ⟨rfl, rfl⟩) fun _ => True.intro
    change (apart lib config tenantId Q).Couples _ _ (Db.getAgent tenantId agentId >>= _)
      (Db.getAgent tenantId agentId >>= _) s s'
    refine Surroundings.Couples.bind (couples_own admits found now)
      (fun found s s' same => ?_) fun _ _ _ same => ⟨rfl, same⟩
    refine Surroundings.Couples.bind (couples_own admits (uses_okOr found .notFound) same)
      (fun agent s s' same => ?_) fun _ _ _ same => ⟨rfl, same⟩
    split
    · exact ⟨_, rfl, rfl, same⟩
    obtain ⟨transaction, begins, uses⟩ :=
      @createOrGetRun_eq_begin lib tenantId agent.id (ChatMessage.listToValue body.messages)
      (Http.idempotencyKey given)
    rw [begins]
    refine Surroundings.Couples.bind (couples_begin admits (fun op inserts => inserts.handled.1) uses same)
      (fun outcome s s' same => ?_) fun _ _ _ same => ⟨rfl, same⟩
    obtain ⟨run, created⟩ := outcome
    dsimp only
    split
    · refine Surroundings.Couples.bind (couples_starts admits uses_startCreatedRun same)
        (fun _ s s' same => ?_) fun _ _ _ same => ⟨rfl, same⟩
      exact ⟨_, rfl, rfl, same⟩
    · exact ⟨_, rfl, rfl, same⟩
  | getRun _ runId =>
    refine couples_own admits
      (Program.uses_bind (Program.uses_bind (uses_query ⟨rfl, rfl⟩) fun _ => True.intro) fun found => ?_) now
    exact Program.uses_bind (uses_okOr ..) fun _ => True.intro
  | getTrace _ runId =>
    refine couples_own admits
      (Program.uses_bind (Program.uses_bind (uses_query ⟨rfl, rfl⟩) fun _ => True.intro) fun found => ?_) now
    exact True.intro

/-- Both executions of `authenticate` answer this tenant, or fail in the same way. -/
theorem couples_authenticate (now : SameView tenantId none s s') :
    (apart lib config tenantId Q).Couples SameInputs (fun result result' s s' => result = result' ∧
      (∀ tenant, result = .ok tenant → tenant = ⟨tenantId⟩) ∧ SameView tenantId none s s') (authenticate lib headers)
      (authenticate lib headers) s s' := by
  unfold authenticate
  cases parsed : headers.apiKey with
  | none => exact ⟨_, rfl, rfl, by rintro _ ⟨⟩, now⟩
  | some parts =>
    obtain ⟨apiKey, keyPrefix⟩ := parts
    refine Surroundings.Couples.call now (fun _ _ _ moved same => (sameView_none_of_rely moved).trans same)
      (fun _ _ _ moved same => same.trans (sameView_none_of_rely moved).symm) ?_
    intro t t' c c' owned owned' effect effect' same sound sound' _ _ ran ran' pair
    obtain rfl : c = c' := pair
    obtain ⟨⟨answer, db⟩, executed, rfl⟩ := Option.map_eq_some_iff.mp ran
    obtain ⟨⟨answer', db'⟩, executed', rfl⟩ := Option.map_eq_some_iff.mp ran'
    by_cases failing : c.fail = true
    · rw [execute_failing failing] at executed executed'
      cases executed
      cases executed'
      exact ⟨_, rfl, rfl, by rintro _ ⟨⟩, same⟩
    · have healthy : c.fail = false := Bool.eq_false_iff.mpr failing
      have admitted {w : World} (known : Q w.db.store) : ∃ row, w.db.store.findApiKey keyPrefix = some row ∧
          verifyApiKey lib apiKey row.keyHash = .ok () ∧ row.tenantId = tenantId := by
        obtain ⟨_, _, row, parsed', found, verified, owner⟩ := admits _ known
        cases parsed.symm.trans parsed'
        exact ⟨row, found, verified, owner⟩
      obtain ⟨row, found, verified, owner⟩ := admitted sound.2
      obtain ⟨row', found', verified', owner'⟩ := admitted sound'.2
      have selects {db : Database} {row : ApiKeyRow} (found : db.store.findApiKey keyPrefix = some row) :
          db.execute c (.findActiveApiKeyByPrefix keyPrefix) = some (.ok (some row), db) :=
            execute_select healthy (congrArg some found)
      rw [selects found] at executed
      rw [selects found'] at executed'
      cases executed
      cases executed'
      change (apart lib config tenantId Q).Couples _ _ ((okOrError (verifyApiKey lib apiKey row.keyHash)).handle _)
        ((okOrError (verifyApiKey lib apiKey row'.keyHash)).handle _) _ _
      rw [verified, verified']
      refine ⟨_, rfl, congrArg Except.ok (congrArg TenantContext.mk (owner.trans owner'.symm)), ?_, same⟩
      rintro _ ⟨⟩
      exact congrArg TenantContext.mk owner

end Requests

/-! ## Requests and tasks -/

theorem Op.InRun.withinView {op : Op} (inside : op.InRun tenantId runId) : op.WithinView tenantId none := by
  cases op with
  | sql statement =>
    cases statement <;> first
      | exact inside.elim
      | exact ⟨rfl, .inl (congrArg some inside)⟩
      | exact ⟨rfl, .inl (congrArg some inside.1)⟩
  | _ => cases inside

theorem Op.InRun.refersToNone {op : Op} (inside : op.InRun tenantId runId) : op.refersToTenant = false := by
  cases op with
  | sql statement => cases statement <;> first | rfl | exact inside.elim
  | _ => rfl

/-- In two executions on behalf of a tenant that sees the same, its rows change in the same way. -/
theorem couples_body {task : Task} {first : Store} (acts : task.ActsFor lib first tenantId)
    (now : SameView tenantId none s s') : (apart lib config tenantId fun s => task.ActsFor lib s tenantId).Couples
      SameInputs (Alike (SameView tenantId none)) (task.body lib) (task.body lib) s s' := by
  cases task with
  | http request =>
    obtain ⟨headers, sent, _⟩ := acts
    have admits (s : Store) (acts : (Task.http request).ActsFor lib s tenantId) :
        s.authenticates lib headers tenantId := by
      obtain ⟨headers', sent', known⟩ := acts
      cases sent.symm.trans sent'
      exact known
    change (apart lib config tenantId _).Couples _ _ (request.handler lib) (request.handler lib) s s'
    rw [Request.handler_eq sent]
    apply Surroundings.Couples.handle (couples_authenticate admits now)
    rintro (fault | tenant) _ s s' ⟨rfl, mine, same⟩
    · exact ⟨_, rfl, rfl, same⟩
    · obtain rfl := mine tenant rfl
      exact couples_onBehalf admits sent same
  | executeRun owner runId =>
    obtain rfl : owner = tenantId := acts
    refine couples_within uses_task ?_ ?_ now
    · rintro op (inside | ⟨semaphore, rfl⟩)
      · exact inside.withinView
      · rfl
    · rintro op w (inside | ⟨semaphore, rfl⟩) refers
      · rw [inside.refersToNone] at refers
        cases refers
      · cases refers

end AgentPlatform
