import AgentPlatform.Guarantees.Course
import AgentPlatform.Model.Lifetime
import AgentPlatform.Ownership.Usage

/-! # Refused requests

A request that is answered with status 400, 401, 404 or 409 has changed nothing: no statement of its handler
has changed a committed row, and its handler has not used the scheduler, whatever happened meanwhile.
-/

set_option autoImplicit false

namespace AgentPlatform

open Interleaving Relational Database Scenario

variable {lib : Libraries} {config : Config} {s : Store} {events : List (Event (platform lib config))}
  {pool next : Pool (platform lib config)} {past : List (Performed signature)} {i : ℕ}

/-! ## Operations without effect -/

/-- The operation, with this answer, changes neither the committed rows nor the scheduler. -/
def harmless : Performed signature → Bool
  | ⟨.sql (.createTenant _), .ok _⟩ | ⟨.sql (.createApiKey _ _ _), .ok _⟩ => false
  | ⟨.sql (.createTool _ _ _ _), .ok _⟩ | ⟨.sql (.commit _), .ok _⟩ => false
  | ⟨.sql (.deleteTool _ _), .ok count⟩ => count == 0
  | ⟨.sql (.markRunFailed _ _ _), _⟩ | ⟨.sql (.beginRunExecution _ _), _⟩ => false
  | ⟨.sql (.finalizeRun _ _ _ _ _), _⟩ | ⟨.sql (.appendEvent _ _ _ _), _⟩ => false
  | ⟨.sql _, _⟩ | ⟨.rollback _, _⟩ | ⟨.sampleAlphanumeric _, _⟩ | ⟨.generateSalt, _⟩ => true
  | _ => false

theorem Database.Executed.store_of_harmless {c : Choice} {db db' : Database} {statement : Statement}
    {answer : Except SqlxError statement.Row} (ran : Executed c db statement answer db')
    (quiet : harmless ⟨.sql statement, answer⟩ = true) : db'.store = db.store := by
  cases ran with
  | unavailable failing =>
    unfold lose
    split <;> rfl
  | @deleteTool tenantId toolId =>
    have none : db.store.tools.countP (fun row => row.tenantId == tenantId && row.id == toolId &&
        row.deletedAt == none) = 0 :=
      beq_iff_eq.mp quiet
    have same : (db.deleteTool c tenantId toolId).2.store.tools = db.store.tools.map id :=
      List.map_congr_left fun row member => if_neg (List.countP_eq_zero.mp none row member)
    rw [List.map_id] at same
    change { db.store with tools := (db.deleteTool c tenantId toolId).2.store.tools } = db.store
    rw [same]
  | createTenant | createApiKey new tenant | createTool new | commit found alive
  | commitAborted found aborted => cases quiet
  | markRunFailed | beginRunExecution | finalizeRun | appendEvent new run => cases quiet
  | _ => rfl

theorem same_of_harmless {c : Choice} {what : Performed signature} (step : Step pool (.performed i c what) next)
    (quiet : harmless what = true) : next.shared.db.store = pool.shared.db.store ∧
      next.shared.scheduler = pool.shared.scheduler := by
  cases step with
  | @act _ task owned op rest _ effect present ran =>
    cases op with
    | sql statement =>
      obtain ⟨⟨answer, db⟩, executes, rfl⟩ := Option.map_eq_some_iff.mp ran
      exact ⟨(executed executes).store_of_harmless quiet, rfl⟩
    | rollback tx | generateSalt =>
      cases ran
      exact ⟨rfl, rfl⟩
    | sampleAlphanumeric count =>
      change Op.exec config Task.executeRun c _ owned pool.shared = some effect at ran
      simp only [Op.exec] at ran
      split at ran <;> cases ran
      exact ⟨rfl, rfl⟩
    | _ => cases quiet

/-! ## Programs -/

/-- The errors by which a request is refused. -/
def AppError.Refuses (fault : AppError) : Prop := fault.statusCode ∈ [400, 401, 404, 409]

instance (fault : AppError) : Decidable fault.Refuses := inferInstanceAs (Decidable (_ ∈ _))

theorem AppError.not_refuses_db (error : SqlxError) : ¬ (AppError.db error).Refuses := by
  simp [Refuses, statusCode]

/-- The program has only done harmless operations when it refuses. -/
def Unharmed {α : Type} (past : List (Performed signature)) (result : Except AppError α) : Prop :=
  ∀ fault, result = .error fault → fault.Refuses → past.all harmless = true

/-- The operation is harmless whatever it is answered. -/
def Op.Harmless (op : Op) : Prop := ∀ answer, harmless ⟨op, answer⟩ = true

variable {α : Type} {tenantId agentId tx : Uuid}

theorem along_harmless {program : Act α} (uses : program.Uses Op.Harmless) (before : past.all harmless = true) :
    program.Along (fun _ _ => True) (fun past _ => past.all harmless = true) past := by
  refine (Program.Along.of_uses uses fun _ _ _ => True.intro).mono ?_
  rintro later result ⟨more, rfl, kinds⟩
  rw [List.all_append, before, Bool.true_and, List.all_eq_true]
  exact fun what member => kinds what member what.answer

theorem unharmed_of_calm {result : Except AppError α} (calm : past.all harmless = true) :
    Unharmed past result := fun _ _ _ => calm

theorem unharmed_of_fails {program : Act α} (fails : program.Fails fun fault => ¬ fault.Refuses) :
    program.Along (fun _ _ => True) Unharmed past :=
  (Program.Along.of_fails fails).mono fun _ _ unrefused fault same refuses => absurd refuses (unrefused fault same)

/-- A query fails with internal errors only. -/
theorem fails_query {statement : Statement} : (query statement).Fails fun fault => ¬ fault.Refuses := by
  rintro (fault | row)
  · exact AppError.not_refuses_db fault
  · trivial

theorem fails_okOr {value : Option α} {error : AppError} (internal : ¬ error.Refuses) :
    (okOr value error).Fails fun fault => ¬ fault.Refuses := by
  cases value with
  | none => exact internal
  | some value => trivial

theorem fails_createOrGetRun (inputMessages : Value) (idempotencyKey : Option String) :
    (Db.createOrGetRun lib tenantId agentId inputMessages idempotencyKey).Fails fun fault => ¬ fault.Refuses := by
  apply Program.fails_bind fails_query
  intro tx
  apply Program.fails_onError
  have settles {α : Type} (value : α) : (do
      query (.commit tx)
      return value : Act α).Fails fun fault => ¬ fault.Refuses := Program.fails_bind fails_query fun _ => True.intro
  rintro ((constraint | _) | row)
  · by_cases conflict : constraint = .uqRunsIdempotency
    · subst conflict
      apply Program.fails_bind fails_query
      intro found
      exact Program.fails_bind (fails_okOr (AppError.not_refuses_db _)) fun _ => settles _
    · cases constraint <;> first | exact AppError.not_refuses_db _ | exact absurd rfl conflict
  all_goals first | exact AppError.not_refuses_db _ | exact settles _

theorem fails_startCreatedRun {runId : Uuid} :
    (Http.startCreatedRun tenantId runId).Fails fun fault => ¬ fault.Refuses := by
  have refuse {reason : String} {payload : Value} {error : AppError} (internal : ¬ error.Refuses) : (do
      failRunBeforeStart tenantId runId reason payload
      throw error : Act Unit).Fails fun fault => ¬ fault.Refuses := by
    refine Program.fails_bind
      (Program.fails_bind (Program.fails_bind fails_query fun _ => True.intro) fun _ => ?_) fun _ => internal
    exact Program.fails_bind fails_query fun _ => fails_query
  apply Program.fails_bind fails_query
  intro _ acquired
  cases acquired with
  | false => exact refuse (by decide)
  | true =>
    apply Program.fails_onError
    intro semaphore available
    cases available with
    | false => exact refuse (by decide)
    | true => exact fun _ => True.intro

/-! ## Handlers -/

theorem calm_bindTools {agentId : Uuid} (toolIds : List Uuid) (before : past.all harmless = true) :
    (Db.bindTools tx tenantId agentId toolIds).Along (fun _ _ => True)
    (fun past _ => past.all harmless = true) past := by
  apply along_harmless _ before
  induction toolIds with
  | nil => trivial
  | cons toolId rest ih =>
    refine Program.uses_bind (Program.uses_bind (uses_query fun _ => ?_) fun present => ?_) fun _ => ih
    · rfl
    · exact Program.uses_ite (uses_query fun _ => rfl) True.intro

/-- One more harmless operation. -/
theorem calm_append {what : Performed signature} (before : past.all harmless = true) (quiet : harmless what = true) :
    (past ++ [what]).all harmless = true := by
  rw [List.all_append, before, List.all_cons, quiet]
  rfl

theorem unharmed_createAgent (name : Option String) (systemPrompt : String) (toolIds : List Uuid)
    (maxIterations : Int) (before : past.all harmless = true) :
    (Db.createAgent tenantId name systemPrompt toolIds maxIterations).Along (fun _ _ => True) Unharmed past := by
  apply Program.Along.bind _ (along_harmless (uses_query fun _ => rfl) before)
  · intro past tx begun
    apply Program.Along.handle Unharmed
    · refine ⟨True.intro, fun answer => ?_⟩
      have inserted := calm_append begun
          (rfl : harmless ⟨.sql (.insertAgent tx tenantId name systemPrompt maxIterations), answer⟩ = true)
      rcases answer with (constraint | _) | row
      · cases constraint <;> exact unharmed_of_calm inserted
      · exact unharmed_of_calm inserted
      · exact unharmed_of_calm inserted
      · exact unharmed_of_calm inserted
      · exact unharmed_of_calm inserted
      · apply Program.Along.bind _ (calm_bindTools toolIds inserted)
        · exact fun _ _ _ => unharmed_of_fails (Program.fails_bind fails_query fun _ => True.intro)
        · exact fun _ _ calm => unharmed_of_calm calm
    · rintro later (fault | agent) unharmed
      · refine ⟨True.intro, fun done => ?_⟩
        rintro _ ⟨⟩ refuses
        exact calm_append (unharmed fault rfl refuses) rfl
      · rintro _ ⟨⟩
  · exact fun _ _ calm => unharmed_of_calm calm

theorem unharmed_onBehalf {request : Request} {headers : HeaderMap} (sent : request.headers? = some headers)
    (tenant : TenantContext) (before : past.all harmless = true) :
    (request.onBehalf lib tenant).Along (fun _ _ => True) Unharmed past := by
  have reading {program : Act Response} (uses : program.Uses Op.Harmless) :
      program.Along (fun _ _ => True) Unharmed past :=
    (along_harmless uses before).mono fun _ _ calm => unharmed_of_calm calm
  cases request with
  | createTenant body => cases sent
  | createApiKey owner => cases sent
  | createTool _ body =>
    change (Http.createTool lib tenant body).Along _ _ _
    unfold Http.createTool
    split
    · exact unharmed_of_calm before
    split
    · exact unharmed_of_calm before
    refine ⟨True.intro, fun answer => ?_⟩
    rcases answer with (constraint | _) | row
    · cases constraint <;> exact unharmed_of_calm (calm_append before rfl)
    · exact unharmed_of_calm (calm_append before rfl)
    · exact unharmed_of_calm (calm_append before rfl)
    · exact unharmed_of_calm (calm_append before rfl)
    · exact unharmed_of_calm (calm_append before rfl)
    · rintro _ ⟨⟩
  | listTools _ =>
    apply reading
    exact Program.uses_bind (Program.uses_bind (uses_query fun _ => rfl) fun _ => True.intro) fun _ => True.intro
  | deleteTool _ toolId =>
    refine ⟨True.intro, fun answer => ?_⟩
    rcases answer with fault | count
    · exact unharmed_of_calm (calm_append before rfl)
    · cases count with
      | zero => exact unharmed_of_calm (calm_append before rfl)
      | succ count => rintro _ ⟨⟩
  | createAgent _ body =>
    change (if _ then _ else _ : Act Response).Along _ _ _
    split
    · exact unharmed_of_calm before
    apply Program.Along.bind _ (unharmed_createAgent _ _ _ _ before)
    · exact fun _ _ _ => unharmed_of_fails (Program.fails_bind fails_query fun _ => True.intro)
    · rintro _ _ unharmed _ ⟨⟩ refuses
      exact unharmed _ rfl refuses
  | getAgent _ agentId =>
    apply reading
    refine Program.uses_bind (Program.uses_bind (uses_query fun _ => rfl) fun _ => True.intro) fun found => ?_
    exact Program.uses_bind (uses_okOr ..) fun agent =>
      Program.uses_bind (uses_query fun _ => rfl) fun _ => True.intro
  | startRun _ agentId body =>
    refine ⟨True.intro, fun answer => ?_⟩
    have found := calm_append before (rfl : harmless ⟨.sql (.getAgent tenant.tenantId agentId), answer⟩ = true)
    rcases answer with fault | _ | row
    · exact unharmed_of_calm found
    · exact unharmed_of_calm found
    change (if _ then _ else _ : Act Response).Along _ _ _
    split
    · exact unharmed_of_calm found
    apply unharmed_of_fails
    apply Program.fails_bind (fails_createOrGetRun _ _)
    rintro ⟨run, created⟩
    cases created with
    | false => trivial
    | true => exact Program.fails_bind fails_startCreatedRun fun _ => True.intro
  | getRun _ runId =>
    apply reading
    refine Program.uses_bind (Program.uses_bind (uses_query fun _ => rfl) fun _ => True.intro) fun found => ?_
    exact Program.uses_bind (uses_okOr ..) fun _ => True.intro
  | getTrace _ runId =>
    apply reading
    exact Program.uses_bind (Program.uses_bind (uses_query fun _ => rfl) fun _ => True.intro) fun _ => True.intro

/-- A handler that refuses its request has only done harmless operations. -/
theorem unharmed_handler (request : Request) : (request.handler lib).Along (fun _ _ => True) Unharmed [] := by
  have authenticated {headers : HeaderMap} (sent : request.headers? = some headers) :
      (request.handler lib).Along (fun _ _ => True) Unharmed [] := by
    rw [Request.handler_eq sent]
    have looks : (authenticate lib headers).Uses Op.Harmless := uses_authenticate fun keyPrefix answer => rfl
    apply Program.Along.bind _ (along_harmless looks rfl)
    · exact fun past tenant calm => unharmed_onBehalf sent tenant calm
    · exact fun past fault calm => unharmed_of_calm calm
  cases request with
  | createTenant body =>
    change (if _ then _ else _ : Act Response).Along _ _ _
    split
    · exact unharmed_of_calm rfl
    · exact unharmed_of_fails
        (Program.fails_bind (Program.fails_bind fails_query fun _ => True.intro) fun _ => True.intro)
  | createApiKey tenantId =>
    apply unharmed_of_fails
    apply Program.fails_bind
    · exact fun _ _ _ =>
        Program.fails_bind (fails_okOr (by simp [AppError.Refuses, AppError.statusCode])) fun _ => True.intro
    · exact fun key => Program.fails_bind fails_query fun _ => True.intro
  | _ => exact authenticated rfl

/-! ## Refused requests -/

/-- No operation of the thread has changed the committed rows or the scheduler. -/
def Effectless (first : Pool (platform lib config)) (events : List (Event (platform lib config))) (i : ℕ) : Prop :=
  ∀ before c what after middle next, events = before ++ .performed i c what :: after → Path first before middle →
    Step middle (.performed i c what) next →
      next.shared.db.store = middle.shared.db.store ∧ next.shared.scheduler = middle.shared.scheduler

/-- A request that is answered with status 400, 401, 404 or 409 has changed nothing, whatever else the process does at
the same time and whatever it has found in the database. -/
theorem refused_without_effect {request : Request} {fault : AppError} (path : Path (booted lib config s) events pool)
    (returned : pool.Returned i (.http request) (.error fault)) (refuses : fault.Refuses) :
    Effectless (booted lib config s) events i := by
  rintro before c what after middle next rfl _ step
  obtain ⟨owned, present⟩ := returned
  have unharmed : Unharmed (doneBy (M := platform lib config) i (before ++ .performed i c what :: after))
      (.error fault : Except AppError Response) :=
    path.along rfl present (unharmed_handler request)
  have quiet := List.all_eq_true.mp (unharmed fault rfl refuses)
  exact same_of_harmless step (quiet what (mem_doneBy.mpr ⟨c, List.mem_append_right _ (List.mem_cons_self ..)⟩))

namespace Scenario

/-- The second tool of the agent does not exist. -/
def unknownTool : CreateAgentRequest := ⟨none, "Answer.", [11, 12], 5⟩

/-- The request that is creating the agent finds this out after it has inserted the agent and its first tool. -/
def refusing : List (Label (platform permissive ⟨1, 1⟩)) :=
  onboarding ++ [arrive (.createTool headers staticTool)] ++ moves 2 10 2 ++
    [arrive (.createAgent headers unknownTool)] ++ moves 3 20 7

def answersNotFound (i : ℕ) (pool : Pool (platform permissive ⟨1, 1⟩)) : Bool :=
  match pool.threads[i]? with
  | some ⟨.http (.createAgent _ _), _, .done (.error .notFound)⟩ => true
  | _ => false

theorem of_answersNotFound {pool : Pool (platform permissive ⟨1, 1⟩)} (answered : answersNotFound i pool = true) :
    ∃ headers body, pool.Returned i (.http (.createAgent headers body)) (.error .notFound) := by
  unfold answersNotFound at answered
  split at answered
  · next headers body owned present => exact ⟨headers, body, owned, present⟩
  · cases answered

end Scenario

/-- Creating an agent with an unknown tool. -/
theorem refused_without_effect_unknownTool : ∃ (events : List (Event (platform permissive ⟨1, 1⟩)))
    (pool : Pool (platform permissive ⟨1, 1⟩)) (request : Request), Path (booted permissive ⟨1, 1⟩ {}) events pool ∧
      pool.Returned 3 (.http request) (.error .notFound) ∧ Effectless (booted permissive ⟨1, 1⟩ {}) events 3 := by
  obtain ⟨events, pool, path, checked⟩ :=
    (started permissive ⟨1, 1⟩).exists_path refusing (fun _ pool => answersNotFound 3 pool) (by decide +kernel)
  obtain ⟨headers, body, returned⟩ := of_answersNotFound checked
  exact ⟨events, pool, .createAgent headers body, path, returned, refused_without_effect path returned (by decide)⟩

end AgentPlatform
