import AgentPlatform.Ownership.RunTask

/-! # The handlers with transactions

`create_agent` and `start_run` under the discipline. The first publishes an agent with its
bindings. The second publishes a run, which it then owns: it announces the run, and either hands it
to its task or settles the refusal itself.
-/

set_option autoImplicit false

namespace AgentPlatform

open Interleaving Relational Database

variable {lib : Libraries} {config : Config} {task : Task} {permits : List SemaphoreRef} {w : World}
  {past : List (Performed signature)} {tx tenantId : Uuid}

/-! ## Creating an agent -/

/-- While a thread builds up its agent, or after it gave up. -/
abbrev Building (lib : Libraries) (config : Config) (task : Task) (permits : List SemaphoreRef)
    (tx tenantId : Uuid) (agent : AgentRow) : Except AppError Unit → (ownership lib config).Assertion :=
  fun result claim permits' w _ => claim = {.transaction tx} ∧ permits' = permits ∧
    task.ActsFor lib w.db.store tenantId ∧
    (result = .ok () → ∃ agentTools, InTransaction w tx false [agent] agentTools [] ∧
      ∀ row ∈ agentTools, row.tenantId = tenantId)

private theorem safe_gaveUp {agent : AgentRow} {fault : AppError} (acts : task.ActsFor lib w.db.store tenantId) :
    (ownership lib config).Safe task (Building lib config task permits tx tenantId agent) (.done (.error fault))
      {.transaction tx} permits w past :=
  safe_done (lasting_actsFor tenantId).persistent acts fun _ knows => ⟨rfl, rfl, knows, nofun⟩

/-- The loop over the tools of a new agent. -/
theorem safe_bindTools {agent : AgentRow} (http : ∃ request, task = .http request) (owned : agent.tenantId = tenantId)
    (toolIds : List Uuid) (agentTools : List AgentToolRow) (mine : ∀ row ∈ agentTools, row.tenantId = tenantId)
    (w : World) (past : List (Performed signature)) (now : InTransaction w tx false [agent] agentTools [])
    (acts : task.ActsFor lib w.db.store tenantId) :
    (ownership lib config).Safe task (Building lib config task permits tx tenantId agent)
      (Db.bindTools tx tenantId agent.id toolIds) {.transaction tx} permits w past := by
  have lasting : Lasting fun s => task.ActsFor lib s tenantId := lasting_actsFor tenantId
  have owner : Token.transaction tx ∈ ({.transaction tx} : Set Token) := Set.mem_singleton _
  induction toolIds generalizing agentTools w past with
  | nil =>
    exact safe_done (lasting.persistent.and (persistent_inTransaction owner)) ⟨acts, now⟩ fun _ knows =>
      ⟨rfl, rfl, knows.1, fun _ => ⟨agentTools, knows.2, mine⟩⟩
  | cons toolId rest ih =>
    refine safe_inside http rfl nofun rfl lasting acts now nofun (fun _ known => known) (fun _ _ _ _ => True.intro)
      ?_ fun t _ knows _ => safe_gaveUp knows
    intro t c present db valid knows stands ran knows' valid'
    have unchanged : db = t.db := by
      cases ran with
      | toolExists found alive => rfl
      | select healthy answered => cases answered
    subst unchanged
    cases present with
    | false => exact safe_gaveUp knows'
    | true =>
      refine safe_inside http rfl nofun rfl lasting knows stands nofun (fun _ known => known) ?_ ?_
        fun t _ knows _ => safe_gaveUp knows
      · intro t _ _ stands
        exact ⟨agent, mem_own.mp (stands.agents ▸ List.mem_singleton_self agent), owned, rfl⟩
      · intro t c row db valid knows stands ran knows' valid'
        cases ran with
        | select healthy answered => cases answered
        | @insertAgentTool _ _ _ _ transaction found alive tool =>
          refine ih (agentTools ++ [⟨tenantId, agent.id, toolId, transaction.startedAt⟩]) ?_ _ _ ?_ knows'
          · intro binding member
            rcases List.mem_append.mp member with old | new
            · exact mine binding old
            · cases List.mem_singleton.mp new
              rfl
          · exact ⟨⟨transaction, found, alive⟩, stands.agents,
              by rw [own_append, own_singleton_self, stands.agentTools], stands.runs⟩

/-- After a transaction: it is closed if it succeeded, and still open if not. -/
abbrev Transacted {α : Type} (lib : Libraries) (config : Config) (task : Task) (permits : List SemaphoreRef)
    (tx tenantId : Uuid) : Except AppError α → (ownership lib config).Assertion :=
  fun result claim permits' w _ => permits' = permits ∧ task.ActsFor lib w.db.store tenantId ∧
    match result with
    | .ok _ => claim = ∅
    | .error _ => claim = {.transaction tx}

private theorem safe_failed {α : Type} {fault : AppError} (acts : task.ActsFor lib w.db.store tenantId) :
    (ownership lib config).Safe task (Transacted (α := α) lib config task permits tx tenantId) (.done (.error fault))
      {.transaction tx} permits w past :=
  safe_done (lasting_actsFor tenantId).persistent acts fun _ knows => ⟨rfl, knows, rfl⟩

theorem safe_createAgent {name : Option String} {systemPrompt : String} {toolIds : List Uuid} {maxIterations : Int}
    (http : ∃ request, task = .http request) (acts : task.ActsFor lib w.db.store tenantId) :
    (ownership lib config).Safe task
      (fun _ claim permits' w _ => claim = ∅ ∧ permits' = permits ∧ task.ActsFor lib w.db.store tenantId)
      (Db.createAgent tenantId name systemPrompt toolIds maxIterations) ∅ permits w past := by
  have lasting : Lasting fun s => task.ActsFor lib s tenantId := lasting_actsFor tenantId
  refine safe_begin http lasting acts ?_ fun t fault knows =>
    safe_done lasting.persistent knows fun _ knows => ⟨rfl, rfl, knows⟩
  intro t tx knows begun
  refine Discipline.Safe.onError (Transacted lib config task permits tx tenantId) ?_ ?_ ?_
  · refine safe_inside http rfl nofun rfl lasting knows begun nofun (fun _ known => known) (fun _ _ _ _ => True.intro)
      ?_ ?_
    · intro t c row db valid knows stands ran knows' valid'
      cases ran with
      | select healthy answered => cases answered
      | insertAgent found alive same fits new =>
        have staged : InTransaction { t with db := { t.db with pendingAgents := t.db.pendingAgents ++ [(tx, row)] } }
            tx false [row] [] [] :=
          ⟨⟨_, found, alive⟩,
            by rw [own_append, own_singleton_self, stands.agents]; rfl, stands.agentTools, stands.runs⟩
        have owned : row.tenantId = tenantId := by rw [same]
        change (ownership lib config).Safe task _ (Db.bindTools tx tenantId row.id toolIds >>= _) _ _ _ _
        refine Discipline.Safe.bind (safe_bindTools http owned toolIds [] (by simp) _ _ staged knows') ?_ ?_
        · rintro ⟨⟩ claim permits w past ⟨rfl, rfl, knows, built⟩
          obtain ⟨agentTools, stands, mine⟩ := built rfl
          have no_runs (token : Token) : token ∈ (∅ : Set Token) ↔
              ∃ run ∈ ([] : List RunRow), token = .run run.id := by
            simp
          refine safe_commit http lasting knows stands (fun _ known => known) ⟨by simpa using owned, mine, by simp⟩
            no_runs ?_ ?_
          · intro t knows _
            exact safe_done lasting.persistent knows fun _ knows => ⟨rfl, knows, rfl⟩
          · exact fun t fault knows _ => safe_failed knows
        · rintro fault claim permits w past ⟨rfl, rfl, knows, _⟩
          exact safe_failed knows
    · intro t fault knows _
      rcases fault with (constraint | _)
      · cases constraint <;> exact safe_failed knows
      all_goals exact safe_failed knows
  · rintro agent claim permits w past ⟨rfl, knows, rfl⟩
    exact safe_done lasting.persistent knows fun _ knows => ⟨rfl, rfl, knows⟩
  · rintro fault claim permits w past ⟨rfl, knows, rfl⟩
    apply safe_rollback http lasting knows
    intro t knows
    exact safe_done lasting.persistent knows fun _ knows => ⟨rfl, rfl, knows⟩

/-! ## Refusing a run -/

/-- The history of a request that has created this run. -/
structure Created (request : RunRow) (past : List (Performed signature)) : Prop where
  created : createdRun? past = some request
  inserted : past.any insertRunFailed = false

variable {request : RunRow}

theorem Created.append {what : Performed signature} (created : Created request past)
    (other : insertRunFailed what = false) : Created request (past ++ [what]) where
  created := by
    have before := created.created
    simp only [createdRun?, Option.ite_none_right_eq_some] at before ⊢
    refine ⟨by simp [before.1], ?_⟩
    rw [List.findSome?_append, before.2]
    rfl
  inserted := by simp [created.inserted, other]

/-- After `fail_run_before_start`, which may have failed itself. -/
abbrev Refused (lib : Libraries) (config : Config) (permits : List SemaphoreRef) (request : RunRow)
    (reason : String) (full : Bool) : Except AppError Unit → (ownership lib config).Assertion :=
  fun result claim permits' w past => claim = {.run request.id} ∧ permits' = permits ∧ Created request past ∧
    (past.any exhausted = full ∧ (result ≠ .ok () → past.any failed = true)) ∧ ∃ stage, InStage lib w request stage ∧
      (∀ fault, result = .error fault → ∃ error, fault = .db error) ∧
      ((past.any leavesPending = true ∧ stage.status = .pending ∧ result ≠ .ok ()) ∨
      (past.any leavesPending = false ∧ stage.status = .failed ∧ stage.errorReason = some reason))

theorem safe_failRunBeforeStart {reason : String} {payload : Value} {full : Bool}
    (capacity : reason ∈ capacityReasons) (rejects : payload = Payload.rejected reason)
    (created : Created request past) (healthy : past.any leavesPending = false) (attempt : past.any exhausted = full)
    (acts : task.ActsFor lib w.db.store request.tenantId) (now : InStage lib w request .announced) :
    (ownership lib config).Safe task (Refused lib config permits request reason full)
      (failRunBeforeStart request.tenantId request.id reason payload) {.run request.id} permits w past := by
  subst rejects
  have owner : Token.run request.id ∈ ({.run request.id} : Set Token) := Set.mem_singleton _
  have lasting : Lasting fun s => task.ActsFor lib s request.tenantId := lasting_actsFor request.tenantId
  refine safe_markRunFailed capacity owner lasting acts now (fun _ known => known) ?_ ?_
  · intro t knows stands
    refine safe_appendEvent (.refusalLogged reason) owner lasting knows stands (fun _ known => known)
      (fun _ _ _ _ _ => .logRefusal)
      rfl rfl (fun _ _ _ _ found => .inl found) ?_ ?_
    · intro t knows stands
      refine safe_appendEvent (.refusalEnded reason) owner lasting knows stands (fun _ known => known)
        (fun _ _ _ _ _ => .endRefusal)
        rfl rfl (fun _ _ _ _ found => .inl found) ?_ ?_
      · intro t knows stands
        refine safe_done (persistent_inStage owner) stands fun t stands => ⟨rfl, rfl,
          ((created.append rfl).append rfl).append rfl, ⟨?_, fun other => absurd rfl other⟩, _, stands, nofun,
          .inr ⟨?_, rfl, rfl⟩⟩
        · simpa [exhausted] using attempt
        · simp [healthy, leavesPending]
      · intro t fault knows stands
        refine safe_done (persistent_inStage owner) stands fun t stands => ⟨rfl, rfl,
          ((created.append rfl).append rfl).append rfl, ⟨?_, fun _ => by simp [failed]⟩, _, stands, ?_,
          .inr ⟨?_, rfl, rfl⟩⟩
        · simpa [exhausted] using attempt
        · rintro _ ⟨⟩; exact ⟨fault, rfl⟩
        · simp [healthy, leavesPending]
    · intro t fault knows stands
      refine safe_done (persistent_inStage owner) stands fun t stands => ⟨rfl, rfl,
        (created.append rfl).append rfl, ⟨?_, fun _ => by simp [failed]⟩, _, stands, ?_, .inr ⟨?_, rfl, rfl⟩⟩
      · simpa [exhausted] using attempt
      · rintro _ ⟨⟩; exact ⟨fault, rfl⟩
      · simp [healthy, leavesPending]
  · intro t fault knows stands
    refine safe_done (persistent_inStage owner) stands fun t stands => ⟨rfl, rfl,
      created.append rfl, ⟨?_, fun _ => by simp [failed]⟩, _, stands, ?_, .inl ⟨?_, rfl, by simp⟩⟩
    · simpa [exhausted] using attempt
    · rintro _ ⟨⟩; exact ⟨fault, rfl⟩
    · simp [leavesPending]

/-! ## Scheduling a run -/

/-- Trying to take a permit. -/
theorem safe_tryAcquireOwned {ε α : Type} {post : Except ε α → (ownership lib config).Assertion} {claim : Set Token}
    {semaphore : SemaphoreRef} {held : List SemaphoreRef} {next : Bool → Program signature ε α} {P : World → Prop}
    (persistent : Persistent lib claim P) (known : P w) (gained : permits ++ [semaphore] = held)
    (may : ∀ w, P w → MayHold lib task w.db.store held)
    (acquired : ∀ t, P t → (ownership lib config).Safe task post (next true) claim held t
      (past ++ [⟨.tryAcquireOwned semaphore, true⟩]))
    (exhausted : ∀ t, P t → (ownership lib config).Safe task post (next false) claim permits t
      (past ++ [⟨.tryAcquireOwned semaphore, false⟩])) :
    (ownership lib config).Safe task post (.call (.tryAcquireOwned semaphore) next) claim permits w past := by
  subst gained
  apply safe_quiet persistent known rfl
  intro t c effect now before ran
  rw [Op.exec] at ran
  split at ran
  · cases ran
    exact ⟨rfl, rfl, may t now, fun knows => acquired _ knows⟩
  · cases ran
    exact ⟨rfl, rfl, before, fun knows => exhausted _ knows⟩

theorem persistent_leftBehind {claim : Set Token} {fault : AppError} (owner : Token.run request.id ∈ claim) :
    Persistent lib claim fun w => LeftBehind lib request fault w past := by
  rintro before after valid valid' evolves same ⟨stage, stands, left⟩
  exact ⟨stage, persistent_inStage owner valid valid' evolves same stands, left⟩

theorem LeftBehind.append {what : Performed signature} {fault : AppError} (left : LeftBehind lib request fault w past)
    (quiet : leavesPending what = false) : LeftBehind lib request fault w (past ++ [what]) := by
  simpa [LeftBehind, quiet] using left

/-- The error for a missing global permit is returned when there was none, unless the database failed. -/
structure Reported (result : Except AppError Unit) (past : List (Performed signature)) : Prop where
  capacity : result = .error .schedulerCapacityExceeded → past.any exhausted = true
  refused : past.any exhausted = true → past.any failed = true ∨ result = .error .schedulerCapacityExceeded

theorem Reported.of_acquired {result : Except AppError Unit} (attempt : past.any exhausted = false)
    (other : result ≠ .error .schedulerCapacityExceeded) : Reported result past where
  capacity same := absurd same other
  refused full := nomatch attempt.symm.trans full

theorem Reported.append {result : Except AppError Unit} {what : Performed signature} (reported : Reported result past)
    (quiet : exhausted what = false) : Reported result (past ++ [what]) where
  capacity same := by simp [reported.capacity same]
  refused full := by
    simp only [List.any_append, List.any_cons, List.any_nil, Bool.or_false, quiet] at full
    rcases reported.refused full with broken | same
    · exact .inl (by simp [broken])
    · exact .inr same

/-- While the request owns its run and the global permit; on success both have been handed over. -/
abbrev Scheduled (lib : Libraries) (config : Config) (permits : List SemaphoreRef) (request : RunRow) :
    Except AppError Unit → (ownership lib config).Assertion :=
  fun result claim permits' w past => (Created request past ∧ Reported result past) ∧ match result with
    | .ok _ => permits' = []
    | .error fault => claim = {.run request.id} ∧ permits' = permits ∧ LeftBehind lib request fault w past

theorem safe_refuse {reason : String} {fault : AppError} (capacity : reason ∈ capacityReasons)
    (named : fault.errorCode = reason) (created : Created request past) (healthy : past.any leavesPending = false)
    (attempt : past.any exhausted = true ↔ fault = .schedulerCapacityExceeded)
    (acts : task.ActsFor lib w.db.store request.tenantId) (now : InStage lib w request .announced) :
    (ownership lib config).Safe task (Scheduled lib config permits request)
      (do
        failRunBeforeStart request.tenantId request.id reason (Payload.rejected reason)
        throw fault) {.run request.id} permits w past := by
  have owner : Token.run request.id ∈ ({.run request.id} : Set Token) := Set.mem_singleton _
  refine Discipline.Safe.bind (safe_failRunBeforeStart capacity rfl created healthy rfl acts now) ?_ ?_
  · rintro ⟨⟩ claim permits w past ⟨rfl, rfl, created, ⟨full, _⟩, stage, stands, _, left⟩
    have behind : LeftBehind lib request fault w past := by
      rcases left with ⟨_, _, failed⟩ | ⟨healthy, status, given⟩
      · exact absurd rfl failed
      · exact ⟨stage, stands, .inr ⟨healthy, reason, status, given, fun _ => named⟩⟩
    rw [← full] at attempt
    refine safe_done (persistent_leftBehind owner) behind fun _ left => ⟨⟨created, ?_, ?_⟩, rfl, rfl, left⟩
    · rintro ⟨⟩; exact attempt.mpr rfl
    · intro full; exact .inr (congrArg Except.error (attempt.mp full))
  · rintro other claim permits w past ⟨rfl, rfl, created, ⟨_, broken⟩, stage, stands, database, left⟩
    obtain ⟨error, rfl⟩ := database other rfl
    have behind : LeftBehind lib request (.db error) w past := by
      rcases left with ⟨pending, status, _⟩ | ⟨healthy, status, given⟩
      · exact ⟨stage, stands, .inl ⟨pending, status⟩⟩
      · exact ⟨stage, stands, .inr ⟨healthy, reason, status, given, by simp [AppError.errorCode, capacityReasons]⟩⟩
    exact safe_done (persistent_leftBehind owner) behind fun _ left =>
      ⟨⟨created, by simp, fun _ => .inl (broken (by simp))⟩, rfl, rfl, left⟩

/-- `schedule_run` while it owns the global permit. -/
theorem safe_scheduleWithPermit (http : ∃ request, task = .http request) (created : Created request past)
    (healthy : past.any leavesPending = false) (attempt : past.any exhausted = false)
    (acts : task.ActsFor lib w.db.store request.tenantId) (now : InStage lib w request .announced) :
    (ownership lib config).Safe task (Scheduled lib config [.global] request)
      (scheduleWithPermit request.tenantId request.id) {.run request.id} [.global] w past := by
  have owner : Token.run request.id ∈ ({.run request.id} : Set Token) := Set.mem_singleton _
  have knowledge : Persistent lib {.run request.id} fun w =>
      task.ActsFor lib w.db.store request.tenantId ∧ InStage lib w request .announced :=
    (lasting_actsFor request.tenantId).persistent.and (persistent_inStage owner)
  apply safe_quiet knowledge ⟨acts, now⟩ rfl
  intro t c effect _ may ran
  cases ran
  refine ⟨rfl, rfl, may, fun knows => ?_⟩
  refine safe_tryAcquireOwned knowledge knows rfl (fun _ knows => .both knows.1) ?_ ?_
  · intro t knows
    apply safe_spawn http knows.2
    intro t
    exact safe_done Lasting.trivial.persistent True.intro fun _ _ =>
      ⟨⟨((created.append rfl).append rfl).append rfl, .of_acquired (by simp [attempt, exhausted]) nofun⟩, rfl⟩
  · intro t knows
    exact safe_refuse (by simp [capacityReasons]) rfl ((created.append rfl).append rfl)
      (by simp [healthy, leavesPending]) (by simp [attempt, exhausted]) knows.1 knows.2

theorem safe_scheduleRun (http : ∃ request, task = .http request) (created : Created request past)
    (healthy : past.any leavesPending = false) (attempt : past.any exhausted = false)
    (acts : task.ActsFor lib w.db.store request.tenantId) (now : InStage lib w request .announced) :
    (ownership lib config).Safe task (Scheduled lib config [] request)
      (scheduleRun request.tenantId request.id) {.run request.id} [] w past := by
  have owner : Token.run request.id ∈ ({.run request.id} : Set Token) := Set.mem_singleton _
  have knowledge : Persistent lib {.run request.id} fun w =>
      task.ActsFor lib w.db.store request.tenantId ∧ InStage lib w request .announced :=
    (lasting_actsFor request.tenantId).persistent.and (persistent_inStage owner)
  refine safe_tryAcquireOwned knowledge ⟨acts, now⟩ rfl (fun _ _ => .global) ?_ ?_
  · intro t knows
    refine Discipline.Safe.onError (Scheduled lib config [.global] request)
      (safe_scheduleWithPermit http (created.append rfl) (by simp [healthy, leavesPending])
      (by simp [attempt, exhausted]) knows.1 knows.2) ?_ ?_
    · rintro ⟨⟩ claim permits w past ⟨history, rfl⟩
      exact safe_done Lasting.trivial.persistent True.intro fun _ _ => ⟨history, rfl⟩
    · rintro fault claim permits w past ⟨⟨created, reported⟩, rfl, rfl, left⟩
      apply safe_dropPermit (persistent_leftBehind owner) left (by simp) (by simp) (fun _ => .nothing)
      intro t left
      exact safe_done (persistent_leftBehind owner) left fun _ left =>
        ⟨⟨created.append rfl, reported.append rfl⟩, rfl, rfl, left.append rfl⟩
  · intro t knows
    exact safe_refuse (by simp [capacityReasons]) rfl (created.append rfl) (by simp [healthy, leavesPending])
      (by simp [exhausted]) knows.1 knows.2

/-- What `start_run` does with the run it has created. -/
theorem safe_startCreatedRun (http : ∃ request, task = .http request) (created : Created request past)
    (healthy : past.any leavesPending = false) (attempt : past.any exhausted = false)
    (acts : task.ActsFor lib w.db.store request.tenantId) (now : InStage lib w request .created) :
    (ownership lib config).Safe task (Scheduled lib config [] request)
      (Http.startCreatedRun request.tenantId request.id) {.run request.id} [] w past := by
  have owner : Token.run request.id ∈ ({.run request.id} : Set Token) := Set.mem_singleton _
  refine safe_appendEvent .announced owner (lasting_actsFor request.tenantId) acts now (fun _ known => known)
    (fun _ _ _ _ _ => .announce)
    rfl rfl (fun _ _ _ _ found => .inl found) ?_ ?_
  · intro t knows stands
    exact safe_scheduleRun http (created.append rfl) (by simp [healthy, leavesPending]) (by simp [attempt, exhausted])
      knows stands
  · intro t fault _ stands
    exact safe_done (persistent_inStage owner) stands fun _ stands =>
      ⟨⟨created.append rfl, .of_acquired (by simp [attempt, exhausted]) nofun⟩, rfl, rfl, _, stands,
        .inl ⟨by simp [leavesPending], rfl⟩⟩

/-! ## Starting a run -/

/-- The history of a request that has not tried to create a run yet. -/
structure Idle (past : List (Performed signature)) : Prop where
  uninserted : past.findSome? insertedRun? = none
  unrefused : past.any insertRunFailed = false
  uncommitted : past.any committed = false
  healthy : past.any leavesPending = false
  unscheduled : past.any exhausted = false

theorem Idle.append {what : Performed signature} (idle : Idle past) (other : insertedRun? what = none)
    (fine : insertRunFailed what = false) (opened : committed what = false) (quiet : leavesPending what = false)
    (unscheduled : exhausted what = false) : Idle (past ++ [what]) where
  uninserted := by rw [List.findSome?_append, idle.uninserted]; simp [other]
  unrefused := by simp [idle.unrefused, fine]
  uncommitted := by simp [idle.uncommitted, opened]
  healthy := by simp [idle.healthy, quiet]
  unscheduled := by simp [idle.unscheduled, unscheduled]

theorem createdRun?_of_uncommitted (uncommitted : past.any committed = false) : createdRun? past = none := by
  simp [createdRun?, uncommitted]

theorem createdRun?_append {what : Performed signature} (opened : committed what = false)
    (gone : createdRun? past = none) (other : insertedRun? what = none) : createdRun? (past ++ [what]) = none := by
  simpa [createdRun?, opened, List.findSome?_append, other] using gone

/-- The history of a request that has created no run, and will not. -/
structure Unmade (past : List (Performed signature)) : Prop where
  gone : createdRun? past = none
  healthy : past.any leavesPending = false
  unscheduled : past.any exhausted = false

theorem Idle.unmade (idle : Idle past) : Unmade past :=
  ⟨createdRun?_of_uncommitted idle.uncommitted, idle.healthy, idle.unscheduled⟩

theorem Unmade.append {what : Performed signature} (unmade : Unmade past) (opened : committed what = false)
    (other : insertedRun? what = none) (quiet : leavesPending what = false) (unscheduled : exhausted what = false) :
    Unmade (past ++ [what]) where
  gone := createdRun?_append opened unmade.gone other
  healthy := by simp [unmade.healthy, quiet]
  unscheduled := by simp [unmade.unscheduled, unscheduled]

/-- The run of a request that has created one; nothing else is ever answered with success. -/
structure CreatedRun (lib : Libraries) (tenantId : Uuid) (answer : RunRecord × Bool) (claim : Set Token) (w : World)
    (past : List (Performed signature)) (request : RunRow) : Prop where
  owned : request.tenantId = tenantId
  answered : answer = (runFromRow lib request, true)
  claimed : claim = {.run request.id}
  stands : InStage lib w request .created
  created : Created request past
  healthy : past.any leavesPending = false
  unscheduled : past.any exhausted = false

/-- After `create_or_get_run`. -/
abbrev GotRun (lib : Libraries) (config : Config) (task : Task) (permits : List SemaphoreRef) (unmade : Set Token)
    (tenantId : Uuid) : Except AppError (RunRecord × Bool) → (ownership lib config).Assertion :=
  fun result claim permits' w past => permits' = permits ∧ task.ActsFor lib w.db.store tenantId ∧ match result with
    | .ok answer => ∃ request, CreatedRun lib tenantId answer claim w past request
    | .error fault => claim = unmade ∧ Unmade past ∧ ∃ error, fault = .db error

private theorem safe_unmade {claim : Set Token} {error : SqlxError} (acts : task.ActsFor lib w.db.store tenantId)
    (unmade : Unmade past) :
    (ownership lib config).Safe task (GotRun lib config task permits claim tenantId) (.done (.error (.db error)))
      claim permits w past :=
  safe_done (lasting_actsFor tenantId).persistent acts fun _ knows => ⟨rfl, knows, rfl, unmade, error, rfl⟩

theorem safe_createOrGetRun {agentId : Uuid} {messages : List ChatMessage} {idempotencyKey : Option String}
    (http : ∃ request, task = .http request) (acts : task.ActsFor lib w.db.store tenantId) (idle : Idle past) :
    (ownership lib config).Safe task (GotRun lib config task permits ∅ tenantId)
      (Db.createOrGetRun lib tenantId agentId
        (ChatMessage.listToValue messages) idempotencyKey) ∅ permits w past := by
  have lasting : Lasting fun s => task.ActsFor lib s tenantId := lasting_actsFor tenantId
  refine safe_begin http lasting acts ?_ fun t fault knows => safe_unmade knows (idle.unmade.append rfl rfl rfl rfl)
  intro t tx knows begun
  have idle : Idle (past ++ [⟨.sql .begin, .ok tx⟩]) := idle.append rfl rfl rfl rfl rfl
  refine Discipline.Safe.onError (GotRun lib config task permits {.transaction tx} tenantId) ?_ ?_ ?_
  · refine safe_inside http rfl nofun rfl lasting knows begun nofun (fun _ known => known)
      (fun _ _ _ _ => ⟨messages, rfl⟩) ?_ ?_
    · intro t c row db valid knows stands ran knows' valid'
      cases ran with
      | select healthy answered => cases answered
      | insertRun found alive same new unclaimed agent =>
        have staged : InTransaction { t with db := { t.db with pendingRuns := t.db.pendingRuns ++ [(tx, row)] } }
            tx false [] [] [row] :=
          ⟨⟨_, found, alive⟩, stands.agents, stands.agentTools,
            by rw [own_append, own_singleton_self, stands.runs]; rfl⟩
        have owned : row.tenantId = tenantId := by rw [same]
        have keeps (token : Token) : token ∈ ({.run row.id} : Set Token) ↔ ∃ run ∈ [row], token = .run run.id := by
          simp
        refine safe_commit http lasting knows' staged (fun _ known => known) ⟨by simp, by simp, by simpa using owned⟩
          keeps ?_ ?_
        · intro t knows stands
          have owner : Token.run row.id ∈ ({.run row.id} : Set Token) := Set.mem_singleton _
          refine safe_done (lasting.persistent.and (persistent_inStage owner))
            ⟨knows, stands row (List.mem_singleton_self row)⟩ fun t ⟨knows, stands⟩ =>
            ⟨rfl, knows, row, owned, rfl, rfl, stands, ⟨?_, ?_⟩, ?_, ?_⟩
          · rw [createdRun?, if_pos (by simp [committed]), List.findSome?_append, List.findSome?_append,
              idle.uninserted]
            rfl
          · rw [List.any_append, List.any_append, idle.unrefused]
            rfl
          · rw [List.any_append, List.any_append, idle.healthy]
            rfl
          · rw [List.any_append, List.any_append, idle.unscheduled]
            rfl
        · intro t fault knows _
          refine safe_unmade knows ⟨createdRun?_of_uncommitted ?_, ?_, ?_⟩
          · rw [List.any_append, List.any_append, idle.uncommitted]
            rfl
          · rw [List.any_append, List.any_append, idle.healthy]
            rfl
          · rw [List.any_append, List.any_append, idle.unscheduled]
            rfl
    · intro t fault knows stands
      have unmade : Unmade (past ++ [⟨.sql .begin, .ok tx⟩] ++ [⟨.sql (.insertRun tx tenantId agentId
          (ChatMessage.listToValue messages) idempotencyKey), .error fault⟩]) := idle.unmade.append rfl rfl rfl rfl
      rcases fault with constraint | _
      · cases constraint with
        | uqRunsIdempotency =>
          -- the transaction has been aborted, so the query for the existing run fails as well
          refine safe_inside http rfl nofun rfl lasting knows stands (fun _ => ⟨rfl, rfl, rfl⟩) (fun _ known => known)
            (fun _ _ _ _ => True.intro) ?_ fun t fault knows _ => safe_unmade knows (unmade.append rfl rfl rfl rfl)
          intro t c row db _ _ stands ran _ _
          have alive : true = false := stands.alive rfl (by simp) ran
          cases alive
        | _ => exact safe_unmade knows unmade
      all_goals exact safe_unmade knows unmade
  · rintro answer claim permits w past ⟨rfl, knows, request, made⟩
    obtain rfl := made.claimed
    refine safe_done (lasting.persistent.and (persistent_inStage (Set.mem_singleton _))) ⟨knows, made.stands⟩
      fun t ⟨knows, stands⟩ => ⟨rfl, knows, request, { made with stands }⟩
  · rintro fault claim permits w past ⟨rfl, knows, rfl, unmade, error, rfl⟩
    exact safe_rollback http lasting knows fun t knows => safe_unmade knows (unmade.append rfl rfl rfl rfl)

theorem Looked.idle {past' : List (Performed signature)} (looked : Looked past past')
    (idle : Idle past) : Idle past' := by
  rcases looked with rfl | ⟨keyPrefix, answer, rfl⟩
  · exact idle
  · cases answer <;> exact idle.append rfl rfl rfl rfl rfl

theorem Idle.start : Idle [] := ⟨rfl, rfl, rfl, rfl, rfl⟩

/-- What `start_run` establishes when it has created no run. -/
theorem Unmade.returns {claim : Set Token} {result : Except AppError Response} (unmade : Unmade past)
    (refused : past.any insertRunFailed = true → ∃ error, result = .error (.db error))
    (other : result ≠ .error .schedulerCapacityExceeded) : StartReturns lib result claim w past where
  conflict := refused
  created _ _ made := nomatch unmade.gone.symm.trans made
  uncreated _ := unmade.healthy
  capacity same := absurd same other
  refused full := nomatch unmade.unscheduled.symm.trans full

/-- What `start_run` establishes when it has created a run. -/
theorem Created.returns {claim : Set Token} {outcome : Except AppError Unit} {result : Except AppError Response}
    (created : Created request past) (reported : Reported outcome past)
    (same : ∀ fault, result = .error fault ↔ outcome = .error fault)
    (left : ∀ fault, result = .error fault → Token.run request.id ∈ claim ∧ LeftBehind lib request fault w past) :
    StartReturns lib result claim w past where
  conflict refused := nomatch created.inserted.symm.trans refused
  created other fault made failed := by
    cases created.created.symm.trans made
    exact left fault failed
  uncreated gone := nomatch created.created.symm.trans gone
  capacity failed := reported.capacity ((same _).mp failed)
  refused full := (reported.refused full).imp_right (same _).mpr

/-- The handler of `start_run` on behalf of an authenticated tenant. -/
theorem safe_startRun {headers : HeaderMap} {tenant : TenantContext} {agentId : Uuid} {request : StartRunRequest}
    (acts : (Task.http (.startRun headers agentId request)).ActsFor lib w.db.store tenant.tenantId)
    (idle : Idle past) : (ownership lib config).Safe (.http (.startRun headers agentId request))
      ((ownership lib config).returns (.http (.startRun headers agentId request)))
      (Http.startRun lib headers tenant agentId request) ∅ [] w past := by
  have lasting : Lasting fun s => (Task.http (.startRun headers agentId request)).ActsFor lib s tenant.tenantId :=
    lasting_actsFor tenant.tenantId
  have startless {past : List (Performed signature)} (idle : Idle past) {w : World}
      {result : Except AppError Response} (other : result ≠ .error .schedulerCapacityExceeded) :
      (ownership lib config).Safe (.http (.startRun headers agentId request))
        ((ownership lib config).returns (.http (.startRun headers agentId request))) (.done result) ∅ [] w past :=
    safe_done Lasting.trivial.persistent True.intro fun _ _ =>
      ⟨rfl, idle.unmade.returns (fun refused => nomatch idle.unrefused.symm.trans refused) other⟩
  refine safe_unowned rfl lasting.persistent acts ?_ ?_
  · rintro w knows _ ⟨⟩
    exact knows
  intro before after c answer _ knows _ _ ran
  rcases answer with fault | _ | agent
  · exact startless (idle.append rfl rfl rfl rfl rfl) nofun
  · exact startless (idle.append rfl rfl rfl rfl rfl) nofun
  change (ownership lib config).Safe _ _ (if request.messages.isEmpty then _ else _ : Act Response) _ _ _ _
  split
  · exact startless (idle.append rfl rfl rfl rfl rfl) nofun
  refine Discipline.Safe.bind (safe_createOrGetRun ⟨_, rfl⟩ knows (idle.append rfl rfl rfl rfl rfl)) ?_ ?_
  · rintro answer claim permits w past ⟨rfl, knows, run, made⟩
    obtain ⟨owned, rfl, rfl, stands, created, healthy, unscheduled⟩ := made
    have owner : Token.run run.id ∈ ({.run run.id} : Set Token) := Set.mem_singleton _
    rw [← owned] at knows
    change (ownership lib config).Safe _ _ (Http.startCreatedRun tenant.tenantId run.id >>= _) _ _ _ _
    rw [← owned]
    refine Discipline.Safe.bind (safe_startCreatedRun ⟨_, rfl⟩ created healthy unscheduled knows stands) ?_ ?_
    · rintro ⟨⟩ claim permits w past ⟨⟨created, reported⟩, rfl⟩
      exact safe_done Lasting.trivial.persistent True.intro fun _ _ => ⟨rfl, created.returns reported (by simp) nofun⟩
    · rintro fault claim permits w past ⟨⟨created, reported⟩, rfl, rfl, left⟩
      refine safe_done (persistent_leftBehind owner) left fun t left =>
        ⟨rfl, created.returns reported (by simp) ?_⟩
      rintro _ ⟨⟩
      exact ⟨owner, left⟩
  · rintro fault claim permits w past ⟨rfl, _, rfl, unmade, error, rfl⟩
    exact safe_done Lasting.trivial.persistent True.intro fun _ _ =>
      ⟨rfl, unmade.returns (fun _ => ⟨error, rfl⟩) nofun⟩

end AgentPlatform
