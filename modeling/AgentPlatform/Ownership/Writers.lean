import AgentPlatform.Ownership.Usage
import AgentPlatform.Ownership.Verified

/-! # Who appends events

An event is appended by the request that has created the run or by the task of the run. If all its
further statements fail, such a thread returns and leaves the run as it is, and what it returns with
says which run it owns. So the run of an event exists already when the event is about to be appended,
and nobody else is about to append to it.
-/

set_option autoImplicit false

namespace AgentPlatform

open Interleaving Relational

variable {lib : Libraries} {config : Config} {tenantId runId : Uuid} {past : List (Performed signature)}

/-- The operation appends an event. -/
def Op.Appends (op : Op) : Prop :=
  ∃ tenantId runId eventType payload, op = .sql (.appendEvent tenantId runId eventType payload)

/-- An event could not be appended. -/
def appendFailed : Performed signature → Bool
  | ⟨.sql (.appendEvent ..), .error _⟩ => true
  | _ => false

/-! ## Requests that create no run -/

theorem Own.not_appends {op : Op} (mine : Own tenantId op) : ¬ op.Appends := by
  rintro ⟨owner, run, eventType, payload, rfl⟩
  cases mine.1

theorem Plain.not_appends {tenant : Option Uuid} {op : Op} (plain : Plain tenant op) : ¬ op.Appends := by
  rintro ⟨owner, run, eventType, payload, rfl⟩
  cases plain.1

theorem Op.Builds.not_appends {op : Op} (builds : op.Builds tenantId) : ¬ op.Appends := by
  rintro ⟨owner, run, eventType, payload, rfl⟩
  exact builds

/-- Only `start_run` appends events. -/
theorem uses_handler_quiet {request : Request}
    (other : ∀ headers agentId body, request ≠ .startRun headers agentId body) :
    (request.handler lib).Uses fun op : Op => ¬ op.Appends := by
  have onBehalf {headers : HeaderMap}
      (uses : ∀ tenant, (request.onBehalf lib tenant).Uses fun op : Op => ¬ op.Appends) :
      (authenticate lib headers >>= fun tenant => request.onBehalf lib tenant).Uses fun op : Op => ¬ op.Appends :=
    Program.uses_bind (uses_authenticate fun keyPrefix => by simp [Op.Appends]) uses
  have own {tenant : TenantContext} {program : Act Response} (uses : program.Uses (Own tenant.tenantId)) :
      program.Uses fun op : Op => ¬ op.Appends := uses.mono fun _ => Own.not_appends
  cases request with
  | createTenant body => exact (uses_createTenant body).mono fun _ => Plain.not_appends
  | createApiKey owner => exact (uses_createApiKey owner).mono fun _ => Plain.not_appends
  | createTool headers body => exact onBehalf fun tenant => own (uses_createTool body)
  | listTools headers => exact onBehalf fun tenant => own uses_listTools
  | deleteTool headers toolId => exact onBehalf fun tenant => own (uses_deleteTool toolId)
  | createAgent headers body =>
    refine onBehalf fun tenant => Program.uses_ite True.intro (Program.uses_bind
      ((uses_dbCreateAgent ..).mono fun _ => Op.Builds.not_appends) fun agent => ?_)
    exact own (uses_getAgentToolIds agent)
  | getAgent headers agentId => exact onBehalf fun tenant => own (uses_getAgent agentId)
  | startRun headers agentId body => exact absurd rfl (other headers agentId body)
  | getRun headers runId =>
    refine onBehalf fun tenant =>
      Program.uses_bind (Program.uses_bind (uses_query ?_) fun _ => True.intro) fun found => ?_
    · simp [Op.Appends]
    · exact Program.uses_bind (uses_okOr ..) fun _ => True.intro
  | getTrace headers runId =>
    refine onBehalf fun tenant =>
      Program.uses_bind (Program.uses_bind (uses_query ?_) fun _ => True.intro) fun found => ?_
    · simp [Op.Appends]
    · exact True.intro

/-! ## The request that creates a run -/

section Announcing

variable {request : RunRow} {α : Type}

/-- The request has inserted this run for the tenant and committed it. -/
def Inserted (tenantId : Uuid) (request : RunRow) (past : List (Performed signature)) : Prop :=
  createdRun? past = some request ∧ ∃ tx agentId messages key,
    ⟨.sql (.insertRun tx tenantId agentId messages key), .ok request⟩ ∈ past

/-- Events are appended to the run that the request has created. -/
def AppendsOwn (past : List (Performed signature)) (op : Op) : Prop :=
  ∀ tenantId runId eventType payload, op = .sql (.appendEvent tenantId runId eventType payload) →
    payload.isObject = true ∧ ∃ request, Inserted tenantId request past ∧ request.id = runId

/-- A request that succeeds has lost no event. -/
def Loud (past : List (Performed signature)) (result : Except AppError α) : Prop :=
  ∀ value, result = .ok value → past.any appendFailed = false

theorem AppendsOwn.of_quiet {op : Op} (quiet : ¬ op.Appends) : AppendsOwn past op := by
  rintro owner run eventType payload rfl
  exact absurd ⟨owner, run, eventType, payload, rfl⟩ quiet

theorem Inserted.append (inserted : Inserted tenantId request past) (more : List (Performed signature)) :
    Inserted tenantId request (past ++ more) := by
  obtain ⟨created, tx, agentId, messages, key, done⟩ := inserted
  refine ⟨?_, tx, agentId, messages, key, List.mem_append_left _ done⟩
  simp only [createdRun?, Option.ite_none_right_eq_some] at created ⊢
  refine ⟨by simp [created.1], ?_⟩
  rw [List.findSome?_append, created.2]
  rfl

/-- While the request reports on its run. -/
structure Reporting (tenantId : Uuid) (request : RunRow) (past : List (Performed signature)) : Prop where
  inserted : Inserted tenantId request past
  quiet : past.any appendFailed = false

/-- After a part of the request that reports on its run. -/
abbrev Reports (tenantId : Uuid) (request : RunRow) (past : List (Performed signature))
    (result : Except AppError α) : Prop :=
  ∀ value, result = .ok value → Reporting tenantId request past

theorem reports_error {fault : AppError} : Reports tenantId request past (.error fault : Except AppError α) := by
  rintro value ⟨⟩

theorem Reporting.append {what : Performed signature} (reporting : Reporting tenantId request past)
    (fine : appendFailed what = false) : Reporting tenantId request (past ++ [what]) where
  inserted := reporting.inserted.append _
  quiet := by simp [reporting.quiet, fine]

theorem along_appendEvent {eventType : EventType} {payload : Value} (reporting : Reporting tenantId request past)
    (object : payload.isObject = true) :
    (Trace.appendEvent tenantId request.id eventType payload).Along AppendsOwn (Reports tenantId request) past := by
  refine along_query ?_ (fun _ _ _ => reporting.append rfl) fun _ => reports_error
  rintro owner run eventType payload ⟨⟩
  exact ⟨object, request, reporting.inserted, rfl⟩

theorem along_failRunBeforeStart {reason : String} (reporting : Reporting tenantId request past) :
    (failRunBeforeStart tenantId request.id reason (Payload.rejected reason)).Along AppendsOwn
      (Reports tenantId request) past := by
  refine Program.Along.bind (Reports tenantId request) ?_ ?_ fun _ _ _ => reports_error
  · refine Program.Along.bind (Reports tenantId request) ?_ (fun past _ before _ _ => before _ rfl) fun _ _ _ =>
      reports_error
    exact along_query (.of_quiet (by simp [Op.Appends])) (fun _ _ _ => reporting.append rfl) fun _ => reports_error
  · intro past _ before
    refine Program.Along.bind (Reports tenantId request) (along_appendEvent (before _ rfl) rfl)
      (fun past _ before => ?_) fun _ _ _ => reports_error
    exact along_appendEvent (before _ rfl) rfl

private theorem along_refuse {reason : String} {fault : AppError} (reporting : Reporting tenantId request past) :
    (do
      failRunBeforeStart tenantId request.id reason (Payload.rejected reason)
      throw fault : Act Unit).Along AppendsOwn (Reports tenantId request) past :=
  Program.Along.bind (Reports tenantId request) (along_failRunBeforeStart reporting) (fun _ _ _ => reports_error)
    fun _ _ _ => reports_error

theorem along_scheduleRun (reporting : Reporting tenantId request past) :
    (scheduleRun tenantId request.id).Along AppendsOwn (Reports tenantId request) past := by
  refine ⟨.of_quiet (by simp [Op.Appends]), fun acquired => ?_⟩
  have reporting : Reporting tenantId request (past ++ [⟨.tryAcquireOwned .global, acquired⟩]) := reporting.append rfl
  cases acquired with
  | false => exact along_refuse reporting
  | true =>
    change ((scheduleWithPermit tenantId request.id).onError (act (.dropPermit .global))).Along _ _ _
    refine Program.Along.handle (Reports tenantId request) ?_ ?_
    · refine ⟨.of_quiet (by simp [Op.Appends]), fun semaphore => ?_⟩
      refine ⟨.of_quiet (by simp [Op.Appends]), fun acquired => ?_⟩
      cases acquired with
      | false => exact along_refuse ((reporting.append rfl).append rfl)
      | true => exact ⟨.of_quiet (by simp [Op.Appends]), fun _ _ _ => ((reporting.append rfl).append rfl).append rfl⟩
    · rintro past (fault | value) reports
      · exact ⟨.of_quiet (by simp [Op.Appends]), fun _ => reports_error⟩
      · exact fun _ _ => reports value rfl

theorem along_startCreatedRun (reporting : Reporting tenantId request past) :
    (Http.startCreatedRun tenantId request.id).Along AppendsOwn (Reports tenantId request) past :=
  Program.Along.bind (Reports tenantId request) (along_appendEvent reporting rfl)
    (fun _ _ before => along_scheduleRun (before _ rfl)) fun _ _ _ => reports_error

/-- The history of a request that has not inserted a run. -/
structure Uncreated (past : List (Performed signature)) : Prop where
  uninserted : past.findSome? insertedRun? = none
  quiet : past.any appendFailed = false

theorem Uncreated.append {what : Performed signature} (uncreated : Uncreated past) (other : insertedRun? what = none)
    (fine : appendFailed what = false) : Uncreated (past ++ [what]) where
  uninserted := by rw [List.findSome?_append, uncreated.uninserted]; simp [other]
  quiet := by simp [uncreated.quiet, fine]

theorem along_read (uncreated : Uncreated past) (statement : Statement) (quiet : ¬ (Op.sql statement).Appends)
    (other : ∀ answer, insertedRun? ⟨.sql statement, answer⟩ = none)
    (fine : ∀ answer, appendFailed ⟨.sql statement, answer⟩ = false) :
    (query statement).Along AppendsOwn (fun later _ => Uncreated later) past :=
  along_query (.of_quiet quiet) (fun _ => uncreated.append (other _) (fine _)) fun _ =>
    uncreated.append (other _) (fine _)

/-- What `create_or_get_run` leaves in the history. -/
def Got (tenantId : Uuid) (past : List (Performed signature)) (result : Except AppError (RunRecord × Bool)) : Prop :=
  ∀ run created, result = .ok (run, created) → past.any appendFailed = false ∧
    (created = true → ∃ request, Reporting tenantId request past ∧ request.id = run.id)

theorem got_error {fault : AppError} : Got tenantId past (.error fault) := by
  rintro run created ⟨⟩

theorem along_createOrGetRun {agentId : Uuid} {messages : Value} {key : Option String} (uncreated : Uncreated past) :
    (Db.createOrGetRun lib tenantId agentId messages key).Along AppendsOwn (Got tenantId) past := by
  refine Program.Along.bind _ (along_read uncreated .begin (by simp [Op.Appends]) (fun _ => rfl) fun _ => rfl)
    (fun past tx uncreated => ?_) fun _ _ _ => got_error
  refine Program.Along.handle (Got tenantId) ⟨.of_quiet (by simp [Op.Appends]), fun answer => ?_⟩ ?_
  · have commits {past : List (Performed signature)} {row : RunRow} {created : Bool}
        (uncreated : past.any appendFailed = false)
        (inserted : created = true → ∃ request, Inserted tenantId request (past ++ [⟨.sql (.commit tx), .ok ()⟩]) ∧
          request.id = row.id) : (do
        query (.commit tx)
        return (runFromRow lib row, created) : Act (RunRecord × Bool)).Along AppendsOwn (Got tenantId) past := by
      refine ⟨.of_quiet (by simp [Op.Appends]), fun answer => ?_⟩
      cases answer with
      | error fault => exact got_error
      | ok done =>
        rintro _ _ ⟨⟩
        refine ⟨by rw [List.any_append, uncreated]; rfl, fun new => ?_⟩
        obtain ⟨request, made, id⟩ := inserted new
        exact ⟨request, ⟨made, by rw [List.any_append, uncreated]; rfl⟩, id⟩
    have throws {past : List (Performed signature)} (fault : SqlxError) :
        (.done (.error (.db fault)) : Act (RunRecord × Bool)).Along AppendsOwn (Got tenantId) past := got_error
    rcases answer with (constraint | _) | row
    · by_cases conflict : constraint = .uqRunsIdempotency
      · subst conflict
        have uncreated : Uncreated (past ++ [⟨.sql (.insertRun tx tenantId agentId messages key),
            .error (.database .uqRunsIdempotency)⟩]) := uncreated.append rfl rfl
        refine Program.Along.bind _
          (along_read uncreated (.findRunByKey tx tenantId agentId key) (by simp [Op.Appends]) (fun _ => rfl) fun _ =>
          rfl) (fun past found uncreated => ?_) fun _ _ _ => got_error
        cases found with
        | none => exact throws _
        | some row => exact commits uncreated.quiet nofun
      · cases constraint <;> first | exact throws _ | exact absurd rfl conflict
    · exact throws _
    · exact throws _
    · exact throws _
    · exact throws _
    · have quiet : (past ++
          [(⟨.sql (.insertRun tx tenantId agentId messages key), .ok row⟩ : Performed signature)]).any
          appendFailed = false := by
        rw [List.any_append, uncreated.quiet]
        rfl
      have inserted : Inserted tenantId row
          (past ++ [⟨.sql (.insertRun tx tenantId agentId messages key), .ok row⟩] ++
          [⟨.sql (.commit tx), .ok ()⟩]) := by
        refine ⟨?_, tx, agentId, messages, key, by simp⟩
        rw [createdRun?, if_pos (by simp [committed]), List.findSome?_append, List.findSome?_append,
          uncreated.uninserted]
        rfl
      exact commits quiet fun _ => ⟨row, inserted, rfl⟩
  · rintro past (fault | ⟨run, created⟩) got
    · exact ⟨.of_quiet (by simp [Op.Appends]), fun _ => got_error⟩
    · exact got

theorem loud_error {fault : AppError} : Loud past (.error fault : Except AppError α) := by
  rintro value ⟨⟩

theorem along_startRun {headers : HeaderMap} {tenant : TenantContext} {agentId : Uuid} {body : StartRunRequest}
    (uncreated : Uncreated past) : (Http.startRun lib headers tenant agentId body).Along AppendsOwn Loud past := by
  refine Program.Along.bind (fun later _ => Uncreated later) ?_
    (fun past found uncreated => ?_) fun _ _ _ => loud_error
  · refine Program.Along.bind _ (along_read uncreated (.getAgent tenant.tenantId agentId) (by simp [Op.Appends])
      (fun _ => rfl) fun _ => rfl) (fun _ _ uncreated => uncreated) fun _ _ uncreated => uncreated
  cases found with
  | none => exact loud_error
  | some agent =>
    change (if body.messages.isEmpty then _ else _ : Act Response).Along _ _ _
    split
    · exact loud_error
    · refine Program.Along.bind _ (along_createOrGetRun uncreated) (fun past answer got => ?_) fun _ _ _ => loud_error
      obtain ⟨run, created⟩ := answer
      obtain ⟨quiet, reporting⟩ := got run created rfl
      cases created with
      | false => exact fun _ _ => quiet
      | true =>
        obtain ⟨request, reporting, id⟩ := reporting rfl
        change (Http.startCreatedRun tenant.tenantId run.id >>= fun _ => _ : Act Response).Along _ _ _
        rw [← id]
        exact Program.Along.bind _ (along_startCreatedRun reporting) (fun _ _ before _ _ => (before _ rfl).quiet)
          fun _ _ _ => loud_error

theorem along_startRunHandler {headers : HeaderMap} {agentId : Uuid} {body : StartRunRequest} :
    ((Request.startRun headers agentId body).handler lib).Along AppendsOwn Loud [] := by
  have looks : (authenticate lib headers).Uses fun op : Op =>
      ∃ keyPrefix, op = .sql (.findActiveApiKeyByPrefix keyPrefix) :=
    uses_authenticate fun keyPrefix => ⟨keyPrefix, rfl⟩
  refine Program.Along.bind _ (Program.Along.of_uses looks ?_) (fun past tenant before => ?_) fun _ _ _ => loud_error
  · rintro past op ⟨keyPrefix, rfl⟩
    exact .of_quiet (by simp [Op.Appends])
  · apply along_startRun
    obtain ⟨more, rfl, kinds⟩ := before
    constructor
    · refine List.findSome?_eq_none_iff.mpr fun what member => ?_
      obtain ⟨keyPrefix, same⟩ := kinds what (by simpa using member)
      obtain ⟨op, answer⟩ := what
      subst same
      rfl
    · apply List.any_eq_false.mpr
      intro what member
      obtain ⟨keyPrefix, same⟩ := kinds what (by simpa using member)
      obtain ⟨op, answer⟩ := what
      subst same
      simp [appendFailed]

end Announcing

end AgentPlatform
