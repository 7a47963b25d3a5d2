import AgentPlatform.Ownership.Verified
import Mathlib.Algebra.Order.BigOperators.Group.List
import Mathlib.Algebra.Order.Ring.Nat

/-! # Conservation of permits

A permit is either available or held by exactly one handler or task, so for every semaphore the
available permits and the held ones add up to its capacity.
-/

set_option autoImplicit false

namespace AgentPlatform

open Interleaving Relational

variable {lib : Libraries} {config : Config}

namespace Scheduler

variable {scheduler : Scheduler} {semaphore other : SemaphoreRef} {change : ℕ → ℕ}

/-- The semaphore exists: the global one always, the one of a tenant since it was first asked for. -/
def HasSlot (scheduler : Scheduler) : SemaphoreRef → Prop
  | .global => True
  | .tenant tenantId => (scheduler.tenantSemaphores.lookup tenantId).isSome = true

/-- The number of permits that a semaphore was created with. -/
def capacity (config : Config) (scheduler : Scheduler) : SemaphoreRef → ℕ
  | .global => config.globalMaxConcurrency
  | .tenant tenantId =>
      if (scheduler.tenantSemaphores.lookup tenantId).isSome then config.perTenantMaxConcurrency else 0

theorem hasSlot_of_available (free : 0 < scheduler.available semaphore) : scheduler.HasSlot semaphore := by
  cases semaphore with
  | global => trivial
  | tenant tenantId =>
    cases found : scheduler.tenantSemaphores.lookup tenantId with
    | none => simp [available, found] at free
    | some permits => simp [HasSlot, found]

theorem hasSlot_of_capacity (created : 0 < scheduler.capacity config semaphore) : scheduler.HasSlot semaphore := by
  cases semaphore with
  | global => trivial
  | tenant tenantId =>
    simp only [capacity] at created
    split at created
    · next present => exact present
    · omega

@[simp] theorem available_update_self (slot : scheduler.HasSlot semaphore) :
    (scheduler.update semaphore change).available semaphore = change (scheduler.available semaphore) := by
  cases semaphore with
  | global => rfl
  | tenant tenantId =>
    obtain ⟨permits, found⟩ := Option.isSome_iff_exists.mp slot
    simp [available, update, lookup_change, found]

@[simp] theorem available_update_other (different : other ≠ semaphore) :
    (scheduler.update semaphore change).available other = scheduler.available other := by
  cases semaphore with
  | global =>
    cases other with
    | global => exact absurd rfl different
    | tenant tenantId => rfl
  | tenant tenantId =>
    cases other with
    | global => rfl
    | tenant otherId =>
      have apart : otherId ≠ tenantId := fun same => different (congrArg _ same)
      simp [available, update, lookup_change, apart]

@[simp] theorem capacity_update : (scheduler.update semaphore change).capacity config other =
    scheduler.capacity config other := by
  cases semaphore with
  | global => cases other <;> rfl
  | tenant tenantId =>
    cases other with
    | global => rfl
    | tenant otherId =>
      have kept : (if otherId = tenantId then (scheduler.tenantSemaphores.lookup otherId).map change
          else scheduler.tenantSemaphores.lookup otherId).isSome =
          (scheduler.tenantSemaphores.lookup otherId).isSome := by
        split
        · exact Option.isSome_map
        · rfl
      simp only [capacity, update, lookup_change, kept]

/-- A new semaphore has all its permits. -/
theorem available_entryOrInsert (tenantId : Uuid) :
    (scheduler.entryOrInsert config tenantId).available semaphore + scheduler.capacity config semaphore =
      scheduler.available semaphore + (scheduler.entryOrInsert config tenantId).capacity config semaphore := by
  unfold entryOrInsert
  split
  · rfl
  · next missing =>
    cases semaphore with
    | global => rfl
    | tenant otherId =>
      by_cases same : otherId = tenantId
      · subst same
        have absent := Option.not_isSome_iff_eq_none.mp missing
        simp [available, capacity, List.lookup_append, absent]
      · have apart : [(tenantId, config.perTenantMaxConcurrency)].lookup otherId = none := by simp [same]
        simp only [available, capacity, List.lookup_append, apart, Option.or_none]

theorem available_entryOrInsert_other {owner tenantId : Uuid} (different : tenantId ≠ owner) :
    (scheduler.entryOrInsert config owner).available (.tenant tenantId) = scheduler.available (.tenant tenantId) := by
  unfold entryOrInsert
  split
  · rfl
  · have apart : [(owner, config.perTenantMaxConcurrency)].lookup tenantId = none := by simp [different]
    simp only [available, List.lookup_append, apart, Option.or_none]

end Scheduler

open Scheduler

section Balance

variable {w : World} {c : Choice} {op : Op} {permits : List SemaphoreRef}
  {effect : Effect signature (List SemaphoreRef) World Task op}

/-- An operation moves permits between the scheduler, its thread and the thread it starts. -/
theorem Op.exec_balanced (ran : op.exec config Task.executeRun c permits w = some effect)
    (slots : ∀ semaphore ∈ permits, w.scheduler.HasSlot semaphore) (semaphore : SemaphoreRef) :
    effect.shared.scheduler.available semaphore + effect.owned.count semaphore +
        (effect.spawned.map fun started => started.2.count semaphore).getD 0 + w.scheduler.capacity config semaphore =
      w.scheduler.available semaphore + permits.count semaphore + effect.shared.scheduler.capacity config
        semaphore := by
  cases op with
  | sql statement =>
    obtain ⟨⟨answer, db⟩, _, rfl⟩ := Option.map_eq_some_iff.mp ran
    rfl
  | rollback tx | generateSalt =>
    cases ran
    rfl
  | sampleAlphanumeric count =>
    simp only [Op.exec, Option.ite_none_right_eq_some] at ran
    cases ran.2
    rfl
  | spawn owner runId =>
    cases ran
    simp
  | getTenantSemaphore tenantId =>
    cases ran
    have created : (w.scheduler.entryOrInsert config tenantId).available semaphore + _ = _ :=
      available_entryOrInsert tenantId
    simp only [Option.map_none, Option.getD_none]
    omega
  | tryAcquireOwned asked =>
    simp only [Op.exec] at ran
    split at ran
    · next free =>
      cases ran
      have slot := hasSlot_of_available free
      by_cases same : semaphore = asked
      · subst same
        simp [slot]
        omega
      · simp [same, Ne.symm same]
    · cases ran
      rfl
  | dropPermit given =>
    simp only [Op.exec] at ran
    split at ran
    · next held =>
      cases ran
      have slot := slots given held
      by_cases same : semaphore = given
      · subst same
        have positive := List.count_pos_iff.mpr held
        simp [slot, List.count_erase_self]
        omega
      · simp [same, List.count_erase_of_ne same]
    · cases ran
      rfl

end Balance

variable {events : List (Event (platform lib config))} {pool : Pool (platform lib config)}

/-- The permits of a semaphore that handlers and tasks hold. -/
def held (pool : Pool (platform lib config)) (semaphore : SemaphoreRef) : ℕ :=
  pool.total fun permits => permits.count semaphore

theorem held_pos {i : ℕ} {thread : Thread (platform lib config)} {semaphore : SemaphoreRef}
    (present : pool.threads[i]? = some thread) (holds : semaphore ∈ thread.owned) : 0 < held pool semaphore := by
  have member : thread.owned.count semaphore ∈ pool.threads.map fun thread => thread.owned.count semaphore :=
    List.mem_map_of_mem (List.mem_of_getElem? present)
  exact Nat.lt_of_lt_of_le (List.count_pos_iff.mpr holds) (List.single_le_sum (by simp) _ member)

/-- A finished handler or task holds no permit. -/
theorem Task.Returns.permits {result : Except AppError Response} {claim : Set Token} {permits : List SemaphoreRef}
    {w : World} {past : List (Performed signature)} {task : Task}
    (returns : task.Returns lib result claim permits w past) : permits = [] := by
  cases task with
  | http request => cases request <;> first | exact returns | exact returns.1
  | executeRun tenantId runId => exact returns.1

/-- Available and held permits add up to the capacity of the semaphore. -/
theorem permits_conserved_from {first : Pool (platform lib config)} (path : Path first events pool)
    (empty : first.threads = []) (full : first.shared.scheduler = .new config) (semaphore : SemaphoreRef) :
    pool.shared.scheduler.available semaphore + held pool semaphore =
      pool.shared.scheduler.capacity config semaphore := by
  induction path generalizing semaphore with
  | nil => cases semaphore <;> simp [full, empty, Scheduler.new, held, Pool.total, available, capacity]
  | @snoc middle last events event path step ih =>
    cases step with
    | arrive accepted =>
      have before := ih semaphore
      simp only [held, Pool.total, List.map_append, List.sum_append] at before ⊢
      simpa [Thread.start] using before
    | @act i task owned op next c effect present ran =>
      have slots (asked : SemaphoreRef) (holds : asked ∈ owned) : middle.shared.scheduler.HasSlot asked := by
        refine hasSlot_of_capacity (?_ : 0 < middle.shared.scheduler.capacity config asked)
        rw [← ih asked]
        exact Nat.lt_of_lt_of_le (held_pos present holds) (Nat.le_add_left ..)
      have moved : effect.shared.scheduler.available semaphore + effect.owned.count semaphore +
          (effect.spawned.map fun started => started.2.count semaphore).getD 0 +
            middle.shared.scheduler.capacity config semaphore =
          middle.shared.scheduler.available semaphore + owned.count semaphore +
            effect.shared.scheduler.capacity config semaphore := Op.exec_balanced ran slots semaphore
      have total : held (middle.advance i task next effect) semaphore + owned.count semaphore =
          held middle semaphore + effect.owned.count semaphore +
            (effect.spawned.map fun started => started.2.count semaphore).getD 0 :=
        Pool.total_advance present _
      have before := ih semaphore
      change effect.shared.scheduler.available semaphore + held (middle.advance i task next effect) semaphore =
        effect.shared.scheduler.capacity config semaphore
      omega

theorem permits_conserved (path : Path (started lib config) events pool) (semaphore : SemaphoreRef) :
    pool.shared.scheduler.available semaphore + held pool semaphore =
      pool.shared.scheduler.capacity config semaphore :=
  permits_conserved_from path rfl rfl semaphore

/-- The handlers and tasks of a tenant hold no more permits than its limit. -/
theorem held_tenant_le (path : Path (started lib config) events pool) (tenantId : Uuid) :
    held pool (.tenant tenantId) ≤ config.perTenantMaxConcurrency := by
  have conserved := permits_conserved path (.tenant tenantId)
  have bound : pool.shared.scheduler.capacity config (.tenant tenantId) ≤ config.perTenantMaxConcurrency := by
    rw [Scheduler.capacity]
    split <;> omega
  omega

end AgentPlatform
