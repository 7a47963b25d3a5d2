import AgentPlatform.Guarantees.Capacity

/-! # The concurrency limits

A task holds both of its permits until `execute_run` returns, so the numbers of permits bound the
numbers of tasks. A semaphore is created once, and it has all its permits back whenever nothing is
in progress.
-/

set_option autoImplicit false

namespace AgentPlatform

open Interleaving Relational Scenario Scheduler

variable {lib : Libraries} {config : Config} {events : List (Event (platform lib config))}
  {pool next : Pool (platform lib config)} {event : Event (platform lib config)} {tenantId : Uuid}

/-- The task of a run whose `execute_run` has not returned. It returns before its permits are dropped. -/
def Thread.unfinished (thread : Thread (platform lib config)) : Bool :=
  match thread.task, thread.program with
  | .executeRun .., .call (.dropPermit _) _ => false
  | .executeRun .., .call _ _ => true
  | _, _ => false

/-- The unfinished tasks. -/
def unfinished (pool : Pool (platform lib config)) : ℕ := pool.threads.countP Thread.unfinished

/-- The unfinished tasks of a tenant. -/
def unfinishedOf (tenantId : Uuid) (pool : Pool (platform lib config)) : ℕ :=
  pool.threads.countP fun thread => Thread.unfinished thread && match thread.task with
    | .executeRun owner _ => owner == tenantId
    | .http _ => false

/-! ## What a task holds -/

/-- An operation that neither takes nor gives away permits. -/
def Op.KeepsPermits : Op → Prop
  | .tryAcquireOwned _ | .dropPermit _ | .spawn .. => False
  | _ => True

theorem Op.InRun.keepsPermits {runId : Uuid} {op : Op} (inside : op.InRun tenantId runId) : op.KeepsPermits := by
  cases op <;> first | exact True.intro | exact inside.elim

theorem Op.exec_keepsPermits {c : Choice} {op : Op} {permits : List SemaphoreRef} {w : World}
    {effect : Effect signature (List SemaphoreRef) World Task op} (keeps : op.KeepsPermits)
    (ran : op.exec config Task.executeRun c permits w = some effect) : effect.owned = permits := by
  cases op with
  | sql statement =>
    obtain ⟨⟨answer, db⟩, _, rfl⟩ := Option.map_eq_some_iff.mp ran
    rfl
  | rollback tx | getTenantSemaphore owner | generateSalt =>
    cases ran
    rfl
  | sampleAlphanumeric count =>
    simp only [Op.exec, Option.ite_none_right_eq_some] at ran
    cases ran.2
    rfl
  | tryAcquireOwned semaphore | dropPermit semaphore | spawn owner runId => exact keeps.elim

/-- A task of this tenant with what it holds: both permits while it works, then one, then none. -/
inductive Executing (tenantId : Uuid) : Act Response → List SemaphoreRef → Prop
  | working {work : Act Unit} (uses : work.Uses Op.KeepsPermits) :
      Executing tenantId (closing tenantId work) [.global, .tenant tenantId]
  | dropping (result : Except AppError Response) :
      Executing tenantId (.call (.dropPermit .global) fun _ => .done result) [.global]
  | finished (result : Except AppError Response) : Executing tenantId (.done result) []

theorem executing_body (runId : Uuid) :
    Executing tenantId (Task.body lib (.executeRun tenantId runId)) [.global, .tenant tenantId] :=
  have uses : (executeRun lib tenantId runId).Uses Op.KeepsPermits :=
    uses_executeRun.mono fun _ => Op.InRun.keepsPermits
  .working uses

/-- One operation of a task. -/
theorem Executing.step {op : Op} {rest : op.Answer → Act Response} {permits : List SemaphoreRef} {c : Choice}
    {w : World} {effect : Effect signature (List SemaphoreRef) World Task op}
    (executing : Executing tenantId (.call op rest) permits)
    (ran : op.exec config Task.executeRun c permits w = some effect) :
    Executing tenantId (rest effect.answer) effect.owned := by
  generalize program : (.call op rest : Act Response) = now at executing
  cases executing with
  | @working work uses =>
    cases work with
    | done result =>
      cases program
      rw [Op.exec, if_pos (by simp)] at ran
      cases ran
      have erased : [SemaphoreRef.global, .tenant tenantId].erase (.tenant tenantId) = [.global] := by
        simp
      rw [erased]
      cases result <;> exact .dropping _
    | call asked later =>
      cases program
      rw [Op.exec_keepsPermits uses.1 ran]
      exact .working (uses.2 effect.answer)
  | dropping result =>
    cases program
    cases ran
    exact .finished result
  | finished result => cases program

/-- A task holds both permits while it is unfinished. -/
theorem Executing.owned_of_unfinished {runId : Uuid} {thread : Thread (platform lib config)}
    (executing : Executing tenantId thread.program thread.owned) (task : thread.task = .executeRun tenantId runId)
    (busy : Thread.unfinished thread = true) : thread.owned = [.global, .tenant tenantId] := by
  obtain ⟨_, permits, program⟩ := thread
  subst task
  cases executing with
  | working uses => rfl
  | dropping result => cases busy
  | finished result => cases busy

/-- A task is started with both permits and follows its program. -/
theorem executing_of_path (path : Path (started lib config) events pool) {i : ℕ}
    {thread : Thread (platform lib config)} {runId : Uuid} (present : pool.threads[i]? = some thread)
    (task : thread.task = .executeRun tenantId runId) : Executing tenantId thread.program thread.owned := by
  induction path generalizing i thread with
  | nil => simp [started] at present
  | @snoc middle last events event path step ih =>
    cases step with
    | @arrive asked accepted =>
      rw [List.getElem?_append] at present
      split at present
      · exact ih present task
      · obtain rfl := List.mem_singleton.mp (List.mem_of_getElem? present)
        obtain rfl : asked = .executeRun tenantId runId := task
        cases accepted
    | @act j mover owned op next c effect there ran =>
      rcases Pool.advance_cases (List.getElem?_eq_some_iff.mp there).1 present with
        ⟨rfl, rfl⟩ | ⟨_, present⟩ | ⟨_, started, spawned, rfl⟩
      · exact (ih there task).step ran
      · exact ih present task
      · obtain ⟨claims, holds⟩ := holds_of_started path
        obtain ⟨kept, permits⟩ := holds.permits there ran
        obtain ⟨given, enters, _⟩ := permits.spawned started spawned
        obtain ⟨asked, permits⟩ := started
        obtain rfl : asked = .executeRun tenantId runId := task
        obtain ⟨_, rfl, _⟩ := enters
        exact executing_body runId

/-- An unfinished task holds both permits. -/
theorem owned_of_unfinished (path : Path (started lib config) events pool) {thread : Thread (platform lib config)}
    (member : thread ∈ pool.threads) (busy : Thread.unfinished thread = true) :
    ∃ owner runId, thread.task = .executeRun owner runId ∧ thread.owned = [.global, .tenant owner] := by
  obtain ⟨i, present⟩ := List.getElem?_of_mem member
  obtain ⟨task, owned, program⟩ := thread
  cases task with
  | http request => cases busy
  | executeRun owner runId =>
    exact ⟨owner, runId, rfl, (executing_of_path path present rfl).owned_of_unfinished rfl busy⟩

/-! ## The limits -/

private theorem countP_le_held {busy : Thread (platform lib config) → Bool} {semaphore : SemaphoreRef}
    (holds : ∀ thread ∈ pool.threads, busy thread = true → semaphore ∈ thread.owned) :
    pool.threads.countP busy ≤ held pool semaphore := by
  rw [held, Pool.total]
  generalize pool.threads = threads at holds
  induction threads with
  | nil => simp
  | cons thread rest ih =>
    have tail := ih fun other member => holds other (List.mem_cons_of_mem _ member)
    simp only [List.countP_cons, List.map_cons, List.sum_cons]
    split
    · next now =>
      have positive := List.count_pos_iff.mpr (holds thread List.mem_cons_self now)
      omega
    · omega

/-- The tenants with a semaphore. -/
def Scheduler.keys (scheduler : Scheduler) : List Uuid := scheduler.tenantSemaphores.map Prod.fst

@[simp] theorem Scheduler.keys_update {scheduler : Scheduler} {semaphore : SemaphoreRef} {change : ℕ → ℕ} :
    (scheduler.update semaphore change).keys = scheduler.keys := by
  cases semaphore with
  | global => rfl
  | tenant tenantId =>
    simp only [keys, update, List.map_map]
    apply List.map_congr_left
    intro entry _
    simp only [Function.comp_apply]
    split
    · next same => exact same.symm
    · rfl

/-- A semaphore is created for a tenant that has none. -/
theorem Scheduler.keys_entryOrInsert (config : Config) (scheduler : Scheduler) :
    (scheduler.entryOrInsert config tenantId).keys = scheduler.keys ∨
      tenantId ∉ scheduler.keys ∧ (scheduler.entryOrInsert config tenantId).keys = scheduler.keys ++ [tenantId] := by
  unfold entryOrInsert
  split
  · exact .inl rfl
  · next missing =>
    refine .inr ⟨fun member => missing ?_, by simp [keys]⟩
    obtain ⟨entry, present, rfl⟩ := List.mem_map.mp member
    exact List.lookup_isSome_iff.mpr ⟨entry, present, by simp⟩

/-- No operation removes or duplicates a semaphore. -/
theorem Op.exec_keys {c : Choice} {op : Op} {permits : List SemaphoreRef} {w : World}
    {effect : Effect signature (List SemaphoreRef) World Task op}
    (ran : op.exec config Task.executeRun c permits w = some effect) :
    effect.shared.scheduler.keys = w.scheduler.keys ∨
      ∃ tenantId, tenantId ∉ w.scheduler.keys ∧ effect.shared.scheduler.keys = w.scheduler.keys ++ [tenantId] := by
  cases op with
  | sql statement =>
    obtain ⟨⟨answer, db⟩, _, rfl⟩ := Option.map_eq_some_iff.mp ran
    exact .inl rfl
  | rollback tx | generateSalt | spawn owner runId =>
    cases ran
    exact .inl rfl
  | sampleAlphanumeric count =>
    simp only [Op.exec, Option.ite_none_right_eq_some] at ran
    cases ran.2
    exact .inl rfl
  | getTenantSemaphore owner =>
    cases ran
    rcases w.scheduler.keys_entryOrInsert config with same | added
    · exact .inl same
    · exact .inr ⟨owner, added⟩
  | tryAcquireOwned semaphore | dropPermit semaphore =>
    simp only [Op.exec] at ran
    split at ran
    · cases ran
      exact .inl Scheduler.keys_update
    · cases ran
      exact .inl rfl

theorem keys_of_step (step : Step pool event next) : next.shared.scheduler.keys = pool.shared.scheduler.keys ∨
    ∃ tenantId, tenantId ∉ pool.shared.scheduler.keys ∧
      next.shared.scheduler.keys = pool.shared.scheduler.keys ++ [tenantId] := by
  cases step with
  | arrive accepted => exact .inl rfl
  | act present ran => exact Op.exec_keys ran

/-- A semaphore that exists stays, whatever happens. -/
theorem keys_of_path (path : Path pool events next) : pool.shared.scheduler.keys <+: next.shared.scheduler.keys := by
  induction path with
  | nil => exact List.prefix_refl _
  | snoc path step ih =>
    rcases keys_of_step step with same | ⟨tenantId, _, same⟩ <;> rw [same]
    · exact ih
    · exact ih.trans (List.prefix_append ..)

private theorem lookup_of_nodup {entries : List (Uuid × ℕ)} (nodup : (entries.map Prod.fst).Nodup) {entry : Uuid × ℕ}
    (member : entry ∈ entries) : entries.lookup entry.1 = some entry.2 := by
  induction entries with
  | nil => cases member
  | cons first rest ih =>
    obtain ⟨new, others⟩ := List.nodup_cons.mp nodup
    obtain ⟨key, permits⟩ := first
    rcases List.mem_cons.mp member with rfl | later
    · simp
    · have apart : entry.1 ≠ key := fun same => new (List.mem_map.mpr ⟨entry, later, same⟩)
      rw [List.lookup_cons, beq_eq_false_iff_ne.mpr apart]
      exact ih others later

theorem keys_nodup (path : Path (started lib config) events pool) : pool.shared.scheduler.keys.Nodup := by
  induction path with
  | nil => exact List.nodup_nil
  | snoc path step ih =>
    rcases keys_of_step step with same | ⟨tenantId, new, same⟩ <;> rw [same]
    · exact ih
    · exact List.nodup_append.mpr ⟨ih, List.nodup_singleton _,
        by rintro key member _ (_ | ⟨_, ⟨⟩⟩) rfl; exact new member⟩

/-- The limits hold and no permit is lost. -/
structure Limited (pool : Pool (platform lib config)) : Prop where
  tasks : unfinished pool ≤ config.globalMaxConcurrency
  tasksOf : ∀ tenantId, unfinishedOf tenantId pool ≤ config.perTenantMaxConcurrency
  globalPermits : pool.shared.scheduler.globalSemaphore + held pool .global = config.globalMaxConcurrency
  tenantPermits : ∀ entry ∈ pool.shared.scheduler.tenantSemaphores,
    entry.2 + held pool (.tenant entry.1) = config.perTenantMaxConcurrency
  unique : (pool.shared.scheduler.tenantSemaphores.map Prod.fst).Nodup
  idle : (∀ thread ∈ pool.threads, ∃ result, thread.program = .done result) →
    pool.shared.scheduler.globalSemaphore = config.globalMaxConcurrency ∧
    ∀ entry ∈ pool.shared.scheduler.tenantSemaphores, entry.2 = config.perTenantMaxConcurrency

/-- In every state the limits hold and no permit is lost, and no semaphore is ever replaced. -/
theorem concurrency_limited (path : Path (started lib config) events pool) :
    Limited pool ∧ ∀ later last, Path pool later last →
      pool.shared.scheduler.tenantSemaphores.map Prod.fst <+:
        last.shared.scheduler.tenantSemaphores.map Prod.fst := by
  have all (semaphore : SemaphoreRef) := permits_conserved path semaphore
  have globals : pool.shared.scheduler.globalSemaphore + held pool .global = config.globalMaxConcurrency :=
    all .global
  have tenants (entry : Uuid × ℕ) (member : entry ∈ pool.shared.scheduler.tenantSemaphores) :
      entry.2 + held pool (.tenant entry.1) = config.perTenantMaxConcurrency := by
    have found := lookup_of_nodup (keys_nodup path) member
    simpa [available, capacity, found] using all (.tenant entry.1)
  refine ⟨⟨?_, fun tenantId => ?_, globals, tenants, keys_nodup path, fun idle => ?_⟩,
    fun later last after => keys_of_path after⟩
  · have bound : unfinished pool ≤ held pool .global := countP_le_held fun thread member busy => by
      obtain ⟨owner, runId, _, owned⟩ := owned_of_unfinished path member busy
      simp [owned]
    omega
  · refine (countP_le_held fun thread member busy => ?_).trans (held_tenant_le path tenantId)
    obtain ⟨unfinished, mine⟩ := Bool.and_eq_true_iff.mp busy
    obtain ⟨owner, runId, task, owned⟩ := owned_of_unfinished path member unfinished
    rw [task] at mine
    simp [owned, eq_of_beq mine]
  · obtain ⟨claims, holds⟩ := holds_of_started path
    have none_held (semaphore : SemaphoreRef) : held pool semaphore = 0 := by
      apply List.sum_eq_zero
      intro amount member
      obtain ⟨⟨task, owned, program⟩, thread, rfl⟩ := List.mem_map.mp member
      obtain ⟨result, finished⟩ := idle _ thread
      obtain rfl : program = .done result := finished
      obtain ⟨i, present⟩ := List.getElem?_of_mem thread
      obtain ⟨_, found, returns⟩ := holds.returned ⟨owned, present⟩
      cases present.symm.trans found
      simp [Task.Returns.permits returns]
    rw [none_held] at globals
    exact ⟨globals, fun entry member => by simpa [none_held] using tenants entry member⟩

/-- A task is in progress, and the limits hold. -/
theorem concurrency_limited_served : ∃ events pool, Path (started permissive ⟨1, 1⟩) events pool ∧
    unfinished pool = 1 ∧ Limited pool := by
  obtain ⟨events, pool, path, busy⟩ := (started permissive ⟨1, 1⟩).exists_path keyedStart
    (fun _ pool => unfinished pool == 1) (by decide +kernel)
  exact ⟨events, pool, path, beq_iff_eq.mp busy, (concurrency_limited path).1⟩

end AgentPlatform
