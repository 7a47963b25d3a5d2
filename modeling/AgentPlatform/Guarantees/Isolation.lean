import AgentPlatform.Guarantees.Capacity
import AgentPlatform.Guarantees.Mistakes
import AgentPlatform.Ownership.Readings
import AgentPlatform.Ownership.Twins

/-! # Isolation of tenants

A step on behalf of one tenant leaves the rows and the semaphore of every other tenant as they are, and what it
answers and writes depends on the rows of its own tenant only. The global permit is all that tenants share. -/

set_option autoImplicit false

namespace AgentPlatform

open Interleaving Relational Database Scenario

variable {lib : Libraries} {config : Config} {events : List (Event (platform lib config))}
  {pool next : Pool (platform lib config)} {tenantId other : Uuid} {i : ℕ}

/-! ## The semaphores of other tenants -/

/-- The history contains the verified API key of this tenant. -/
def Verified (lib : Libraries) (headers : HeaderMap) (tenantId : Uuid) (past : List (Performed signature)) : Prop :=
  ∃ apiKey keyPrefix row, headers.apiKey = some (apiKey, keyPrefix) ∧
    ⟨.sql (.findActiveApiKeyByPrefix keyPrefix), .ok (some row)⟩ ∈ past ∧
      verifyApiKey lib apiKey row.keyHash = .ok () ∧
    row.tenantId = tenantId

/-- Only the semaphore of the tenant is looked up that the request has authenticated as. -/
def AsksForOwn (lib : Libraries) (headers : HeaderMap) (past : List (Performed signature)) (op : Op) : Prop :=
  ∀ owner, op = .getTenantSemaphore owner → Verified lib headers owner past

theorem along_authenticate {headers : HeaderMap} : (authenticate lib headers).Along (AsksForOwn lib headers)
    (fun past result => ∀ tenant, result = .ok tenant → Verified lib headers tenant.tenantId past) [] := by
  unfold authenticate
  cases parsed : headers.apiKey with
  | none => rintro tenant ⟨⟩
  | some parts =>
    obtain ⟨apiKey, keyPrefix⟩ := parts
    refine ⟨by rintro owner ⟨⟩, fun answer => ?_⟩
    rcases answer with fault | _ | row
    · rintro tenant ⟨⟩
    · rintro tenant ⟨⟩
    change ((okOrError (verifyApiKey lib apiKey row.keyHash)).handle _).Along _ _ _
    cases verified : verifyApiKey lib apiKey row.keyHash with
    | error fault => rintro tenant ⟨⟩
    | ok done =>
      rintro tenant ⟨⟩
      exact ⟨apiKey, keyPrefix, row, parsed, List.mem_append_right _ (List.mem_singleton_self _), verified, rfl⟩

theorem along_asksForOwn {request : Request} {headers : HeaderMap} (sent : request.headers? = some headers) :
    (request.handler lib).Along (AsksForOwn lib headers) (fun _ _ => True) [] := by
  rw [Request.handler_eq sent]
  refine Program.Along.bind _ along_authenticate (fun past tenant verified => ?_) fun _ _ _ => True.intro
  refine (Program.Along.of_uses (uses_onBehalf sent tenant) ?_).mono fun _ _ _ => True.intro
  rintro more op handled owner rfl
  obtain rfl : owner = tenant.tenantId := handled.1
  obtain ⟨apiKey, keyPrefix, row, parsed, found, rest⟩ := verified tenant rfl
  exact ⟨apiKey, keyPrefix, row, parsed, List.mem_append_left _ found, rest⟩

/-- A verified key still authenticates its request. -/
theorem Verified.authenticates {headers : HeaderMap} (verified : Verified lib headers tenantId (doneBy i events))
    (path : Path (started lib config) events pool) : pool.shared.db.store.authenticates lib headers tenantId := by
  obtain ⟨apiKey, keyPrefix, row, parsed, done, checked, owner⟩ := verified
  obtain ⟨before, after, middle, c, earlier, later, selected⟩ := selected_of_mem path done fun _ _ => rfl
  have found : middle.shared.db.store.findApiKey keyPrefix = some row := Option.some.inj selected
  exact lasting_authenticates.of_path earlier later ⟨apiKey, keyPrefix, row, parsed, found, checked, owner⟩

/-- Whoever looks up the semaphore of a tenant acts for this tenant. -/
theorem actsFor_of_getTenantSemaphore (path : Path (started lib config) events pool) {task : Task}
    {owned : List SemaphoreRef} {rest : SemaphoreRef → Act Response}
    (present : pool.threads[i]? = some ⟨task, owned, .call (.getTenantSemaphore other) rest⟩) :
    task.ActsFor lib pool.shared.db.store other := by
  have follows := (path.follows rfl).1 i _ present
  cases task with
  | executeRun owner runId =>
    rcases (follows.uses uses_task).2.1 with inside | ⟨semaphore, absurd⟩
    · exact inside.elim
    · cases absurd
  | http request =>
    cases sent : request.headers? with
    | none =>
      cases request with
      | createTenant body => exact ((follows.uses (uses_createTenant body)).2.1).elim
      | createApiKey owner => exact ((follows.uses (uses_createApiKey owner)).2.1).elim
      | _ => cases sent
    | some headers =>
      have asks := (path.along rfl present (along_asksForOwn sent)).1 other rfl
      exact ⟨headers, sent, asks.authenticates path⟩

theorem MayHold.foreign {task : Task} {s : Store} {permits : List SemaphoreRef} (may : MayHold lib task s permits)
    (acts : task.ActsFor lib s tenantId) (different : other ≠ tenantId) : SemaphoreRef.tenant other ∉ permits := by
  cases may with
  | nothing => simp
  | global => simp
  | both owner =>
    obtain rfl := acts.unique owner
    simpa using different

/-- A step on behalf of a tenant leaves the semaphores of the others alone. -/
theorem available_of_step (path : Path (started lib config) events pool) {c : Choice} {what : Performed signature}
    (step : Step pool (.performed i c what) next) {thread : Thread (platform lib config)}
    (present : pool.threads[i]? = some thread) (acts : thread.task.ActsFor lib pool.shared.db.store tenantId)
    (different : other ≠ tenantId) :
    next.shared.scheduler.available (.tenant other) = pool.shared.scheduler.available (.tenant other) := by
  obtain ⟨claims, holds⟩ := holds_of_started path
  obtain ⟨claims', holds'⟩ := holds_of_started (path.snoc step)
  have evolves := evolves_of_started path step
  cases step with
  | @act _ task owned op rest _ effect mover ran =>
    cases present.symm.trans mover
    have before : MayHold lib task pool.shared.db.store owned := (holds.holding i _ mover).2
    have after : MayHold lib task effect.shared.db.store effect.owned :=
        (holds'.holding i _ (Pool.advance_self mover)).2
    have unheld := before.foreign acts different
    have untaken := after.foreign (acts.mono evolves.apiKeys) different
    change effect.shared.scheduler.available _ = _
    cases op with
    | sql statement =>
      obtain ⟨_, _, rfl⟩ := Option.map_eq_some_iff.mp ran
      rfl
    | rollback tx | generateSalt | spawn owner runId =>
      cases ran
      rfl
    | sampleAlphanumeric count =>
      simp only [Op.exec, Option.ite_none_right_eq_some] at ran
      cases ran.2
      rfl
    | getTenantSemaphore owner =>
      have owns := actsFor_of_getTenantSemaphore path mover
      obtain rfl := acts.unique owns
      cases ran
      exact Scheduler.available_entryOrInsert_other different
    | tryAcquireOwned semaphore =>
      simp only [Op.exec] at ran
      split at ran
      · cases ran
        have unrelated : SemaphoreRef.tenant other ≠ semaphore := by
          rintro rfl
          exact untaken (List.mem_append_right _ (List.mem_singleton_self _))
        exact @Scheduler.available_update_other pool.shared.scheduler semaphore (.tenant other) (· - 1) unrelated
      · cases ran
        rfl
    | dropPermit semaphore =>
      simp only [Op.exec] at ran
      split at ran
      · next held =>
        cases ran
        change (pool.shared.scheduler.update semaphore _).available _ = _
        apply Scheduler.available_update_other
        rintro rfl
        exact unheld held
      · cases ran
        rfl

/-! ## Two executions -/

/-- Thread `i` carries out its task for the tenant from beginning to end. Meanwhile nobody else touches the rows of
the tenant, and the ids that are generated for the thread are new. -/
structure CarriesOut (tenantId : Uuid) (task : Task) (i : ℕ) (first : Pool (platform lib config))
    (events : List (Event (platform lib config))) (last : Pool (platform lib config))
    (result : Except AppError Response) : Prop where
  reachable : ∃ history, Path (started lib config) history first
  starts : ∃ owned, first.threads[i]? = some ⟨task, owned, task.body lib⟩
  acts : task.ActsFor lib first.shared.db.store tenantId
  path : Path first events last
  returned : last.Returned i task result
  undisturbed : ∀ rows, OthersKeep i first events fun w => w.db.store.ofTenant tenantId = rows
  fresh : ∀ before c what after middle, events = before ++ .performed i c what :: after → Path first before middle →
    what.op.generates = true → ¬ middle.shared.db.UsesId c.id

variable {first last first' last' : Pool (platform lib config)} {events' : List (Event (platform lib config))}
  {task : Task} {j : ℕ} {result result' : Except AppError Response}

theorem CarriesOut.around (carries : CarriesOut tenantId task i first events last result) :
    (apart lib config tenantId fun s => task.ActsFor lib s tenantId).Around i first events := by
  obtain ⟨history, reached⟩ := carries.reachable
  rintro before event after middle state same until_then step
  have earlier := reached.append until_then
  refine ⟨⟨valid_of_started earlier, ?_⟩, ?_, fun task owned op rest present others => ⟨?_, ?_⟩⟩
  · exact Lasting.of_path (lasting_actsFor tenantId) reached until_then carries.acts
  · rintro c what rfl
    exact carries.fresh before c what after middle same until_then
  · exact carries.undisturbed _ before event after middle state same until_then step others rfl
  · exact fun tx names => sameTransaction_of_step earlier present names step others

/-- The answer and the rows of the tenant are determined by its rows. -/
theorem CarriesOut.unique (carries : CarriesOut tenantId task i first events last result)
    (carries' : CarriesOut tenantId task j first' events' last' result')
    (same : first.shared.db.store.ofTenant tenantId = first'.shared.db.store.ofTenant tenantId)
    (inputs : Paired SameInputs (stepsBy i events) (stepsBy j events')) :
    result = result' ∧ last.shared.db.store.ofTenant tenantId = last'.shared.db.store.ofTenant tenantId := by
  obtain ⟨owned, waiting⟩ := carries.starts
  obtain ⟨owned', waiting'⟩ := carries'.starts
  have now : SameView tenantId none first.shared first'.shared := view_congr same (by rintro _ ⟨⟩)
  obtain ⟨middle, middle', done, done', results, seen⟩ :=
    (couples_body carries.acts now).returned carries.path carries'.path
    carries.around carries'.around waiting waiting' inputs carries.returned carries'.returned
  have rows := congrArg (fun db : Database => db.store.ofTenant tenantId)
      (seen : middle.shared.db.view tenantId none = _)
  simp only [ofTenant_view] at rows
  refine ⟨results, ?_⟩
  have left := done.kept (carries.undisturbed _) rfl
  have right := done'.kept (carries'.undisturbed _) rfl
  exact left.trans (rows.trans right.symm)

/-- A statement of a task has the same answer and effect wherever its tenant has the same rows. -/
theorem statement_unique {statement : Statement} {c : Choice} {answer answer' : Except SqlxError statement.Row}
    {before before' after after' : Database} {runId : Uuid} (inside : (Op.sql statement).InRun tenantId runId)
    (same : before.store.ofTenant tenantId = before'.store.ofTenant tenantId)
    (fresh : statement.generates = true → ¬ before.UsesId c.id ∧ ¬ before'.UsesId c.id)
    (ran : before.execute c statement = some (answer, after))
    (ran' : before'.execute c statement = some (answer', after')) :
    answer = answer' ∧ after.store.ofTenant tenantId = after'.store.ofTenant tenantId := by
  have unrelated {db : Database} (refers : statement.refersToTenant = true) :
      ∃ tenant ∈ db.store.tenants, tenant.id = tenantId := by
    cases refers.symm.trans inside.refersToNone
  have seen := execute_view inside.withinView (fun generates => (fresh generates).1) unrelated ran
  have seen' := execute_view inside.withinView (fun generates => (fresh generates).2) unrelated ran'
  have views : before.view tenantId none = before'.view tenantId none := view_congr same (by rintro _ ⟨⟩)
  rw [views] at seen
  obtain ⟨answers, view⟩ := Prod.ext_iff.mp (Option.some.inj (seen.symm.trans seen'))
  have rows := congrArg (fun db : Database => db.store.ofTenant tenantId) (view : after.view tenantId none = _)
  simp only [ofTenant_view] at rows
  exact ⟨answers, rows⟩

/-- A step on behalf of a tenant leaves the rows and the semaphore of every other tenant as they are. What a request
or task answers and writes for its tenant depends on the rows of this tenant only, and so does every single statement
of a task: apart from what the environment decides, the global permit is the only thing that tenants share. -/
theorem tenants_isolated :
    (∀ events (pool next : Pool (platform lib config)) i c what thread other, Path (started lib config) events pool →
      Step pool (.performed i c what) next → pool.threads[i]? = some thread →
      thread.task.ActsFor lib pool.shared.db.store tenantId → other ≠ tenantId →
        next.shared.db.store.ofTenant other = pool.shared.db.store.ofTenant other ∧
        next.shared.scheduler.available (.tenant other) = pool.shared.scheduler.available (.tenant other)) ∧
    (∀ task i j (first last first' last' : Pool (platform lib config)) events events' result result',
      CarriesOut tenantId task i first events last result → CarriesOut tenantId task j first' events' last' result' →
      first.shared.db.store.ofTenant tenantId = first'.shared.db.store.ofTenant tenantId →
      Paired SameInputs (stepsBy i events) (stepsBy j events') →
        result = result' ∧ last.shared.db.store.ofTenant tenantId = last'.shared.db.store.ofTenant tenantId) ∧
    (∀ events events' (pool next pool' next' : Pool (platform lib config)) i j runId owned owned' statement rest rest'
      c answer answer', Path (started lib config) events pool → Path (started lib config) events' pool' →
      pool.threads[i]? = some ⟨.executeRun tenantId runId, owned, .call (.sql statement) rest⟩ →
      pool'.threads[j]? = some ⟨.executeRun tenantId runId, owned', .call (.sql statement) rest'⟩ →
      pool.shared.db.store.ofTenant tenantId = pool'.shared.db.store.ofTenant tenantId →
      (statement.generates = true → ¬ pool.shared.db.UsesId c.id ∧ ¬ pool'.shared.db.UsesId c.id) →
      Step pool (.performed i c ⟨.sql statement, answer⟩) next →
        Step pool' (.performed j c ⟨.sql statement, answer'⟩) next' →
        answer = answer' ∧ next.shared.db.store.ofTenant tenantId = next'.shared.db.store.ofTenant tenantId) := by
  refine ⟨?_, ?_, ?_⟩
  · intro events pool next i c what thread other path step present acts different
    refine ⟨?_, available_of_step path step present acts different⟩
    obtain ⟨_, mover, there, legal⟩ := lawful_of_started path step
    cases present.symm.trans there
    exact legal.tenancy other fun owner => different (owner.unique acts)
  · intro task i j first last first' last' events events' result result' carries carries' same inputs
    exact carries.unique carries' same inputs
  · intro events events' pool next pool' next' i j runId owned owned' statement rest rest' c answer answer' path path'
      present present' same fresh step step'
    have inside : (Op.sql statement).InRun tenantId runId := by
      rcases (((path.follows rfl).1 i _ present).uses uses_task).2.1 with inside | ⟨semaphore, absurd⟩
      · exact inside
      · cases absurd
    exact statement_unique inside same fresh (execute_of_step step) (execute_of_step step')

namespace Scenario

variable {config : Config}

/-- The first tenant adds a tool. -/
def retooled : List (Label (platform permissive ⟨2, 1⟩)) :=
  twoTenants ++ [arrive (.createTool headers staticTool)] ++ moves 8 40 2

/-- The second tenant starts a run. -/
abbrev otherRequest : Request := .startRun otherHeaders 122 question

/-- The generated id is new. -/
def unused (pool : Pool (platform permissive config)) : Event (platform permissive config) → Bool
  | .arrived _ => true
  | .performed _ c _ => !inUse pool.shared.db c.id

/-- A permit is granted when it is asked for. -/
def grantsPermit : Event (platform permissive config) → Bool
  | .performed _ _ ⟨.tryAcquireOwned _, acquired⟩ => acquired
  | _ => true

/-- The task of this run is about to begin it. -/
def begins (tenantId runId : Uuid) (i : ℕ) (pool : Pool (platform permissive config)) : Bool :=
  match pool.threads[i]? with
  | some ⟨.executeRun owner run, _, .call (.sql (.beginRunExecution owner' run')) _⟩ =>
      owner == tenantId && run == runId && owner' == tenantId && run' == runId
  | _ => false

theorem of_begins {tenantId runId : Uuid} {i : ℕ} {pool : Pool (platform permissive config)}
    (checked : begins tenantId runId i pool = true) : ∃ owned rest,
      pool.threads[i]? =
        some ⟨.executeRun tenantId runId, owned, .call (.sql (.beginRunExecution tenantId runId)) rest⟩ := by
  unfold begins at checked
  split at checked
  · next owner run owned owner' run' rest present =>
    simp only [Bool.and_eq_true, beq_iff_eq] at checked
    obtain ⟨⟨⟨rfl, rfl⟩, rfl⟩, rfl⟩ := checked
    exact ⟨owned, rest, present⟩
  · cases checked

/-- The request of the second tenant is carried out alone, and its task is about to begin the run. -/
def carriesOut (pool : Pool (platform permissive config)) : Bool :=
  identifies otherHeaders 100 pool.shared.db.store &&
    pool.replayAll unused (.arrive (.http otherRequest) :: (choices 150 10).map (.act pool.threads.length)) &&
    (pool.replay? (.arrive (.http otherRequest) :: (choices 150 10).map (.act pool.threads.length))).any
        fun outcome =>
      (outcome.2.result? pool.threads.length).any fun _ =>
        outcome.1.tail.all grantsPermit && begins 100 153 (pool.threads.length + 1) outcome.2 &&
          !inUse outcome.2.shared.db 170

/-- Two threads that meet the same choices, and are granted all permits. -/
theorem paired_of_choices {i j : ℕ} {events events' : List (Event (platform permissive config))}
    (same : (stepsBy i events).map Prod.fst = (stepsBy j events').map Prod.fst)
    (granted : ∀ event ∈ events, grantsPermit event = true)
    (granted' : ∀ event ∈ events', grantsPermit event = true) :
    Paired SameInputs (stepsBy i events) (stepsBy j events') := by
  intro k op c answer c' answer' left right
  have choices : c = c' := by
    have met := congrArg (·[k]?) same
    simpa only [List.getElem?_map, left, right, Option.map_some, Option.some.injEq] using met
  cases op with
  | tryAcquireOwned semaphore =>
    have acquired : answer = true := granted _ (mem_stepsBy.mp (List.mem_of_getElem? left))
    have acquired' : answer' = true := granted' _ (mem_stepsBy.mp (List.mem_of_getElem? right))
    exact ⟨choices, acquired.trans acquired'.symm⟩
  | _ => exact choices

/-- The request of the second tenant has been carried out alone, with these choices, and its task waits. -/
structure Attended (history : List (Event (platform permissive config)))
    (pool first : Pool (platform permissive config)) (more : List (Event (platform permissive config)))
    (last : Pool (platform permissive config)) (result : Except AppError Response) : Prop where
  path : Path (started permissive config) (history ++ .arrived (.http otherRequest) :: more) last
  rows : first.shared = pool.shared
  carries : CarriesOut 100 (.http otherRequest) pool.threads.length first more last result
  choices : (stepsBy pool.threads.length more).map Prod.fst = choices 150 10
  granted : ∀ event ∈ more, grantsPermit event = true
  waits : begins 100 153 (pool.threads.length + 1) last = true
  fresh : ¬ last.shared.db.UsesId (choice 170).id

theorem of_carriesOut {history : List (Event (platform permissive config))} {pool : Pool (platform permissive config)}
    (path : Path (started permissive config) history pool) (checked : carriesOut pool = true) :
    ∃ first more last result, Attended history pool first more last result := by
  simp only [carriesOut, Bool.and_eq_true] at checked
  obtain ⟨⟨known, unused⟩, carried⟩ := checked
  obtain ⟨more, last, result, later, alone, returned, fine, replayed⟩ :=
    pool.exists_alone (.http otherRequest) rfl (choices 150 10) (fun _ more last => more.all grantsPermit &&
    begins 100 153 (pool.threads.length + 1) last && !inUse last.shared.db 170) carried
  simp only [Bool.and_eq_true, List.all_eq_true, Bool.not_eq_true'] at fine
  obtain ⟨first, arrives, rest, same, waiting⟩ := later.arrival
  have acts : (Task.http otherRequest).ActsFor permissive first.shared.db.store 100 :=
    ⟨otherHeaders, rfl, same ▸ of_identifies known⟩
  refine ⟨first, more, last, result, path.append later, same,
    ⟨⟨_, path.snoc arrives⟩, ⟨_, waiting⟩, acts, rest, returned, fun rows => ?_, ?_⟩,
    ?_, fine.1.1, fine.1.2, of_inUse fine.2⟩
  · refine OthersKeep.of_alone (fun event member => .inl ?_) _
    obtain ⟨choice, _, what, rfl⟩ := alone event member
    exact ⟨choice, what, rfl⟩
  · rintro before c what after middle rfl until_then _
    have new := Pool.replayAll_each unused replayed rfl ((Path.single arrives).append until_then)
    exact of_inUse (by simpa [Scenario.unused] using new)
  · obtain ⟨event, next, later, same, _, replayed⟩ := Pool.replay?_cons replayed
    obtain ⟨rfl, rfl⟩ := List.cons.inj same
    exact Pool.replay?_stepsBy replayed

/-- The tenant has the same agents, and nothing else. -/
def sameAgents (tenantId : Uuid) (s t : Store) : Bool :=
  [s, t].all (fun s => (s.ofTenant tenantId).tools.isEmpty && (s.ofTenant tenantId).runs.isEmpty &&
    (s.ofTenant tenantId).runTraces.isEmpty && (s.ofTenant tenantId).agentTools.isEmpty) &&
    (s.ofTenant tenantId).agents == (t.ofTenant tenantId).agents

theorem of_sameAgents {tenantId : Uuid} {s t : Store} (checked : sameAgents tenantId s t = true) :
    s.ofTenant tenantId = t.ofTenant tenantId := by
  simp only [sameAgents, List.all_cons, List.all_nil, Bool.and_true, Bool.and_eq_true,
    List.isEmpty_iff, beq_iff_eq] at checked
  obtain ⟨⟨⟨⟨⟨tools, runs⟩, traces⟩, agentTools⟩, ⟨⟨tools', runs'⟩, traces'⟩, agentTools'⟩, agents⟩ := checked
  simp only [Store.ofTenant, Store.mk.injEq] at *
  exact ⟨trivial, trivial, tools.trans tools'.symm, agents, agentTools.trans agentTools'.symm,
    runs.trans runs'.symm, traces.trans traces'.symm⟩

/-- The first step of a task that waits to begin its run. -/
theorem begin_step {tenantId runId : Uuid} {i : ℕ} {pool : Pool (platform permissive config)}
    (waits : begins tenantId runId i pool = true) : ∃ owned rest answer next,
      pool.threads[i]? =
        some ⟨.executeRun tenantId runId, owned, .call (.sql (.beginRunExecution tenantId runId)) rest⟩ ∧
      Step pool (.performed i (choice 170) ⟨.sql (.beginRunExecution tenantId runId), answer⟩) next := by
  obtain ⟨owned, rest, present⟩ := of_begins waits
  have ran : Op.exec config Task.executeRun (choice 170) (.sql (.beginRunExecution tenantId runId)) owned
        pool.shared =
      some ⟨(pool.shared.db.beginRunExecution (choice 170) tenantId runId).1, owned,
        { pool.shared with db := (pool.shared.db.beginRunExecution (choice 170) tenantId runId).2 }, none⟩ := by
    simp [Op.exec, execute, choice_fail]
  exact ⟨owned, rest, _, _, present, .act present ran⟩

end Scenario

/-- A second tenant starts a run, once without and once with a tool of the first tenant. -/
theorem tenants_isolated_served : ∃ (first last next first' last' next' : Pool (platform permissive ⟨2, 1⟩)) (i j : ℕ)
    (more more' : List (Event (platform permissive ⟨2, 1⟩))) (result result' : Except AppError Response)
    (answer answer' : Except SqlxError ℕ),
    first.shared.db.store.tools = [] ∧ first'.shared.db.store.tools ≠ [] ∧
    CarriesOut 100 (.http otherRequest) i first more last result ∧
    CarriesOut 100 (.http otherRequest) j first' more' last' result' ∧
    Step last (.performed (i + 1) (choice 170) ⟨.sql (.beginRunExecution 100 153), answer⟩) next ∧
    Step last' (.performed (j + 1) (choice 170) ⟨.sql (.beginRunExecution 100 153), answer'⟩) next' ∧
    result = result' ∧ last.shared.db.store.ofTenant 100 = last'.shared.db.store.ofTenant 100 ∧
    answer = answer' ∧ next.shared.db.store.ofTenant 100 = next'.shared.db.store.ofTenant 100 ∧
    next'.shared.db.store.ofTenant 1 = last'.shared.db.store.ofTenant 1 := by
  obtain ⟨history, pool, path, checked⟩ :=
    (started permissive ⟨2, 1⟩).exists_path twoTenants (fun _ pool => carriesOut pool &&
    pool.shared.db.store.tools.isEmpty && ((started permissive ⟨2, 1⟩).replay? retooled).any fun outcome =>
      carriesOut outcome.2 &&
      !outcome.2.shared.db.store.tools.isEmpty && sameAgents 100 pool.shared.db.store outcome.2.shared.db.store)
    (by decide +kernel)
  simp only [Bool.and_eq_true] at checked
  obtain ⟨⟨carried, bare⟩, other⟩ := checked
  obtain ⟨history', pool', path', checked'⟩ :=
    (started permissive ⟨2, 1⟩).exists_path retooled (fun _ pool' => carriesOut pool' &&
    !pool'.shared.db.store.tools.isEmpty && sameAgents 100 pool.shared.db.store pool'.shared.db.store) other
  simp only [Bool.and_eq_true, Bool.not_eq_true'] at checked'
  obtain ⟨⟨carried', tooled⟩, same⟩ := checked'
  obtain ⟨first, more, last, result, attended⟩ := of_carriesOut path carried
  obtain ⟨first', more', last', result', attended'⟩ := of_carriesOut path' carried'
  obtain ⟨owned, rest, answer, next, present, step⟩ := begin_step attended.waits
  obtain ⟨owned', rest', answer', next', present', step'⟩ := begin_step attended'.waits
  obtain ⟨keeps, unique, statements⟩ := @tenants_isolated permissive ⟨2, 1⟩ 100
  have rows : first.shared.db.store.ofTenant 100 = first'.shared.db.store.ofTenant 100 := by
    rw [attended.rows, attended'.rows]
    exact of_sameAgents same
  obtain ⟨results, kept⟩ := unique _ _ _ _ _ _ _ _ _ _ _ attended.carries attended'.carries rows
    (paired_of_choices (attended.choices.trans attended'.choices.symm) attended.granted attended'.granted)
  obtain ⟨answers, written⟩ :=
    statements _ _ _ _ _ _ _ _ _ _ _ _ _ _ _ _ _ attended.path attended'.path present present' kept
    (fun _ => ⟨attended.fresh, attended'.fresh⟩) step step'
  have apart := (keeps _ _ _ _ _ _ _ 1 attended'.path step' present' rfl (by decide)).1
  refine ⟨first, last, next, first', last', next', _, _, more, more', result, result', answer, answer', ?_, ?_,
    attended.carries, attended'.carries, step, step', results, kept, answers, written, apart⟩
  · rw [attended.rows]
    exact List.isEmpty_iff.mp bare
  · rw [attended'.rows]
    exact fun none_there => by simp [none_there] at tooled

end AgentPlatform
