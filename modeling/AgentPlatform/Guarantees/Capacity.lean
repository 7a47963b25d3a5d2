import AgentPlatform.Guarantees.Starting
import AgentPlatform.Guarantees.Visibility
import AgentPlatform.Ownership.Permits
import Mathlib.Algebra.BigOperators.Group.Finset.Basic
import Mathlib.Algebra.Order.BigOperators.Group.Finset

/-! # Who takes the global permits

A request holds a global permit while it asks for the permit of its tenant, and a request that its
tenant's limit rejects keeps it until the rejection is written. These requests count against the
other tenants although the limit per tenant does not bound their number.
-/

set_option autoImplicit false

namespace AgentPlatform

open Interleaving Relational Database Scenario Scheduler

variable {lib : Libraries} {config : Config} {events : List (Event (platform lib config))}
  {pool middle : Pool (platform lib config)} {i j : ℕ} {others : Finset Uuid} {sent : HeaderMap} {agentId : Uuid}
  {body : StartRunRequest}

/-- The requests and tasks that hold a global permit without the permit of their tenant. -/
def undecided (pool : Pool (platform lib config)) : ℕ :=
  pool.threads.countP fun thread => thread.owned == [.global]

/-- The requests and tasks that hold both permits. -/
def admitted (pool : Pool (platform lib config)) : ℕ :=
  pool.threads.countP fun thread => 1 < thread.owned.length

/-- All requests and tasks in progress, apart from thread `j`, belong to these tenants. -/
def OnlyFor (j : ℕ) (others : Finset Uuid) (pool : Pool (platform lib config)) : Prop :=
  ∀ i thread tenantId, i ≠ j → pool.threads[i]? = some thread → (∀ result, thread.program ≠ .done result) →
    thread.task.ActsFor lib pool.shared.db.store tenantId → tenantId ∈ others

/-- Thread `j` asks for a global permit in this state. -/
def AsksIn (j : ℕ) (events : List (Event (platform lib config))) (middle : Pool (platform lib config)) : Prop :=
  ∃ before c acquired rest next,
    events = before ++ .performed j c ⟨.tryAcquireOwned .global, acquired⟩ :: rest ∧
    Path (started lib config) before middle ∧
    Step middle (.performed j c ⟨.tryAcquireOwned .global, acquired⟩) next

/-! ## Counting permits -/

private theorem sum_count_global (s : Store) {threads : List (Thread (platform lib config))}
    (may : ∀ thread ∈ threads, MayHold lib thread.task s thread.owned) :
    (threads.map fun thread => thread.owned.count SemaphoreRef.global).sum =
      (threads.countP fun thread => thread.owned == [.global]) +
        threads.countP fun thread => 1 < thread.owned.length := by
  induction threads with
  | nil => rfl
  | cons thread rest ih =>
    obtain ⟨task, owned, program⟩ := thread
    have first := may _ List.mem_cons_self
    have tail := ih fun other member => may other (List.mem_cons_of_mem _ member)
    simp only [List.map_cons, List.sum_cons, List.countP_cons, tail]
    cases first <;> simp <;> omega

private theorem countP_le_sum {threads : List (Thread (platform lib config))}
    (inside : ∀ thread ∈ threads, 1 < thread.owned.length → ∃ tenantId ∈ others, .tenant tenantId ∈ thread.owned) :
    (threads.countP fun thread => 1 < thread.owned.length) ≤
      ∑ tenantId ∈ others, (threads.map fun thread => thread.owned.count (SemaphoreRef.tenant tenantId)).sum := by
  induction threads with
  | nil => simp
  | cons thread rest ih =>
    have tail := ih fun other member => inside other (List.mem_cons_of_mem _ member)
    simp only [List.map_cons, List.sum_cons, List.countP_cons, Finset.sum_add_distrib]
    have first : (if decide (1 < thread.owned.length) = true then 1 else 0) ≤
        ∑ tenantId ∈ others, thread.owned.count (SemaphoreRef.tenant tenantId) := by
      split
      · next both =>
        obtain ⟨tenantId, member, holds⟩ := inside thread List.mem_cons_self (by simpa using both)
        exact (List.count_pos_iff.mpr holds).trans_le
          (Finset.single_le_sum (f := fun tenantId => thread.owned.count (SemaphoreRef.tenant tenantId))
            (by simp) member)
      · exact Nat.zero_le _
    omega

/-- A request that asks for a global permit holds none. -/
theorem owned_of_asks {claims : ℕ → Set Token} (holds : (ownership lib config).Holds events pool claims) {task : Task}
    {owned : List SemaphoreRef} {next : Bool → Act Response}
    (asks : pool.threads[i]? = some ⟨task, owned, .call (.tryAcquireOwned .global) next⟩) : owned = [] := by
  -- it must be permitted to take a permit as well, which no thread may do that holds one
  let lucky : World := { pool.shared with scheduler := ⟨1, []⟩ }
  have same (token : Token) : token.Same pool.shared lucky := by
    cases token with
    | run runId => exact .refl runId _
    | transaction tx => exact .refl tx _
  have valid : Valid lib lucky := ⟨holds.valid.wellFormed, holds.valid.runs⟩
  have moved : (ownership lib config).Rely (claims i) pool.shared lucky :=
    .single ⟨holds.valid, valid, .refl _, fun token _ => same token⟩
  have holding := holds.holding i _ asks
  obtain ⟨kept, permitted, _⟩ := holds.safe i _ asks lucky moved valid
    (fun token owns => Token.Lives.same (holds.lives i (List.getElem?_eq_some_iff.mp asks).1 token owns) (same token))
    ⟨holding.1, holding.2⟩ {} _ rfl
  have may : MayHold lib task lucky.db.store (owned ++ [.global]) := permitted.holding.2
  generalize taken : owned ++ [.global] = permits at may
  cases may with
  | nothing => simp at taken
  | global => simpa using taken
  | both acts =>
    have last := congrArg List.getLast? taken
    rw [List.getLast?_concat] at last
    cases last

/-- Every held global permit is that of an admitted or of an undecided thread. -/
theorem held_global (path : Path (started lib config) events pool) :
    held pool .global = undecided pool + admitted pool := by
  obtain ⟨claims, holds⟩ := holds_of_started path
  apply sum_count_global pool.shared.db.store
  intro thread member
  obtain ⟨i, present⟩ := List.getElem?_of_mem member
  exact (holds.holding i thread present).2

/-- The limit per tenant bounds the admitted requests and tasks of so many tenants. -/
theorem admitted_le_of (path : Path (started lib config) events pool) (only : OnlyFor j others pool)
    (emptyHanded : ∀ thread, pool.threads[j]? = some thread → thread.owned = []) :
    admitted pool ≤ others.card * config.perTenantMaxConcurrency := by
  obtain ⟨claims, holds⟩ := holds_of_started path
  have inside : ∀ thread ∈ pool.threads, 1 < thread.owned.length →
      ∃ tenantId ∈ others, SemaphoreRef.tenant tenantId ∈ thread.owned := by
    intro thread member both
    obtain ⟨i, present⟩ := List.getElem?_of_mem member
    have may := (holds.holding i thread present).2
    have different : i ≠ j := by
      rintro rfl
      simp [emptyHanded thread present] at both
    have unfinished (result : Except AppError Response) : thread.program ≠ .done result := by
      intro finished
      obtain ⟨task, owned, program⟩ := thread
      subst finished
      obtain ⟨_, found, returns⟩ := holds.returned ⟨owned, present⟩
      cases present.symm.trans found
      simp [Task.Returns.permits returns] at both
    generalize taken : thread.owned = permits at may both
    cases may with
    | nothing => simp at both
    | global => simp at both
    | @both tenantId acts => exact ⟨tenantId, only i thread tenantId different present unfinished acts, by simp⟩
  calc admitted pool ≤ ∑ tenantId ∈ others, held pool (.tenant tenantId) := countP_le_sum inside
    _ ≤ ∑ _tenantId ∈ others, config.perTenantMaxConcurrency :=
      Finset.sum_le_sum fun tenantId _ => held_tenant_le path tenantId
    _ = others.card * config.perTenantMaxConcurrency := by simp

/-- A permit is refused exactly if the admitted and the undecided threads hold all of them. -/
theorem acquired_iff (path : Path (started lib config) events middle) {c : Choice} {acquired : Bool}
    (step : Step middle (.performed j c ⟨.tryAcquireOwned .global, acquired⟩) pool) :
    acquired = true ↔ undecided middle + admitted middle < config.globalMaxConcurrency := by
  have conserved : middle.shared.scheduler.available .global + held middle .global = config.globalMaxConcurrency :=
    permits_conserved path .global
  rw [held_global path] at conserved
  have free : acquired = true ↔ 0 < middle.shared.scheduler.available .global := by
    generalize happened : (⟨.tryAcquireOwned .global, acquired⟩ : Performed signature) = what at step
    cases step with
    | act present ran =>
      cases happened
      change Op.exec config Task.executeRun c (.tryAcquireOwned .global) _ _ = _ at ran
      simp only [Op.exec] at ran
      split at ran
      · next free =>
        cases ran
        exact ⟨fun _ => free, fun _ => rfl⟩
      · next taken =>
        cases ran
        exact ⟨by rintro ⟨⟩, fun free => absurd free taken⟩
  rw [free, ← conserved]
  omega

/-- What a thread did, it did in some state. -/
theorem AsksIn.of_mem (path : Path (started lib config) events pool) {c : Choice} {acquired : Bool}
    (asked : .performed j c ⟨.tryAcquireOwned .global, acquired⟩ ∈ events) :
    ∃ middle, AsksIn j events middle ∧
      (acquired = true ↔ undecided middle + admitted middle < config.globalMaxConcurrency) := by
  obtain ⟨before, rest, rfl⟩ := List.append_of_mem asked
  obtain ⟨middle, next, until_now, step, _⟩ := path.cut
  exact ⟨middle, ⟨before, c, acquired, rest, next, rfl, until_now, step⟩, acquired_iff until_now step⟩

/-- In a state in which thread `j` asks, the limit per tenant bounds the admitted threads. -/
theorem AsksIn.admitted_le (asks : AsksIn j events middle) (only : OnlyFor j others middle) :
    admitted middle ≤ others.card * config.perTenantMaxConcurrency := by
  obtain ⟨before, c, acquired, rest, next, rfl, path, step⟩ := asks
  obtain ⟨claims, holds⟩ := holds_of_started path
  apply admitted_le_of path only
  intro thread present
  generalize happened : (⟨.tryAcquireOwned .global, acquired⟩ : Performed signature) = what at step
  cases step with
  | act mover ran =>
    cases happened
    cases mover.symm.trans present
    exact owned_of_asks holds mover

/-- `start_run` is not rejected for capacity if, when it asks for the global permit, the limits of
the other active tenants and the undecided requests leave one. Apart from failing statements, it is
rejected exactly if all permits are taken when it asks. -/
theorem capacity_left (path : Path (started lib config) events pool) {result : Except AppError Response}
    (returned : pool.Returned j (.http (.startRun sent agentId body)) result) :
    ((∀ middle, AsksIn j events middle → ∃ others : Finset Uuid, OnlyFor j others middle ∧
        others.card * config.perTenantMaxConcurrency + undecided middle < config.globalMaxConcurrency) →
      result ≠ .error .schedulerCapacityExceeded) ∧
    ((doneBy j events).any failed = false →
      (result ≠ .error .schedulerCapacityExceeded ↔ ∀ middle, AsksIn j events middle →
        undecided middle + admitted middle < config.globalMaxConcurrency)) := by
  obtain ⟨claims, holds⟩ := holds_of_started path
  obtain ⟨owned, _, _, returns⟩ := holds.returned returned
  have enough (room : ∀ middle, AsksIn j events middle →
      undecided middle + admitted middle < config.globalMaxConcurrency) :
      result ≠ .error .schedulerCapacityExceeded := by
    intro rejected
    obtain ⟨what, done, full⟩ := List.any_eq_true.mp (returns.capacity rejected)
    obtain ⟨c, member⟩ := mem_doneBy.mp done
    unfold exhausted at full
    split at full
    · next acquired =>
      obtain ⟨middle, asks, free⟩ := AsksIn.of_mem path member
      simp [free.mpr (room middle asks)] at full
    · cases full
  refine ⟨fun room => enough fun middle asks => ?_, fun fine => ⟨fun other middle asks => ?_, enough⟩⟩
  · obtain ⟨others, only, left⟩ := room middle asks
    have bound := asks.admitted_le only
    omega
  · obtain ⟨before, c, acquired, rest, next, rfl, until_now, step⟩ := asks
    refine (acquired_iff until_now step).mp (Bool.not_eq_false _ ▸ fun refused => ?_)
    subst refused
    have done : (⟨.tryAcquireOwned .global, false⟩ : Performed signature) ∈ doneBy (M := platform lib config) j _ :=
      mem_doneBy.mpr ⟨c, List.mem_append_right before (List.mem_cons_self (l := rest))⟩
    rcases returns.refused (List.any_eq_true.mpr ⟨_, done, rfl⟩) with broken | rejected
    · cases fine.symm.trans broken
    · exact other rejected

namespace Scenario

/-- The headers of a second tenant. -/
def otherHeaders : HeaderMap where
  authorization := some (("Bearer map_live_" ++ String.ofList (List.replicate 12 'b') ++ "_" ++
    String.ofList (List.replicate 32 'b')).toList.map fun c => UInt8.ofNat c.toNat)

/-- Two tenants register and create an agent each, and the first one starts a run. -/
def twoTenants : List (Label (platform permissive ⟨2, 1⟩)) :=
  onboarding ++ [arrive (.createTenant ⟨"other"⟩)] ++ moves 2 100 1 ++
  [arrive (.createApiKey 100), .act 3 { choice 102 with chars := List.replicate 12 'b' },
    .act 3 { choice 103 with chars := List.replicate 32 'b' }] ++ moves 3 104 2 ++
  [arrive (.createAgent headers ⟨none, "Answer.", [], 5⟩)] ++ moves 4 20 5 ++
  [arrive (.createAgent otherHeaders ⟨none, "Answer.", [], 5⟩)] ++ moves 5 120 5 ++
  [arrive (.startRun headers 22 question)] ++ moves 6 30 10

/-- The second tenant starts a run, up to the question for the global permit. -/
def otherStart (i : ℕ) : List (Label (platform permissive ⟨2, 1⟩)) :=
  [arrive (.startRun otherHeaders 122 question)] ++ moves i 150 6

/-- Everything in progress, apart from thread `j`, belongs to this tenant. -/
def onlyFor {config : Config} (j : ℕ) (tenantId : Uuid) (pool : Pool (platform permissive config)) : Bool :=
  (List.range pool.threads.length).all fun i => i == j || (pool.threads[i]?).any fun thread =>
    match thread.program, thread.task with
    | .done _, _ => true
    | _, .executeRun owner _ => owner == tenantId
    | _, .http request => request.headers?.any fun sent => identifies sent tenantId pool.shared.db.store

theorem of_onlyFor {config : Config} {j : ℕ} {tenantId : Uuid} {pool : Pool (platform permissive config)}
    (checked : onlyFor j tenantId pool = true) : OnlyFor j {tenantId} pool := by
  intro i thread owner different present unfinished acts
  obtain ⟨task, owned, program⟩ := thread
  have member := List.all_eq_true.mp checked i (List.mem_range.mpr (List.getElem?_eq_some_iff.mp present).1)
  rw [present, Option.any_some, Bool.or_eq_true, beq_iff_eq] at member
  have belongs := member.resolve_left different
  rw [Finset.mem_singleton]
  cases program with
  | done result => exact absurd rfl (unfinished result)
  | call op next =>
    cases task with
    | executeRun tenant runId => exact acts.symm.trans (beq_iff_eq.mp belongs)
    | http request =>
      obtain ⟨sent, given, known⟩ := (Option.any_eq_true ..).mp belongs
      exact acts.unique ⟨sent, given, of_identifies known⟩

/-- The event is the question of thread `i` for a global permit. -/
def asks {config : Config} (i : ℕ) : Event (platform permissive config) → Bool
  | .performed j _ ⟨.tryAcquireOwned .global, _⟩ => j == i
  | _ => false

theorem of_asks {config : Config} {i : ℕ} {event : Event (platform permissive config)} (asked : asks i event = true) :
    ∃ c acquired, event = .performed i c ⟨.tryAcquireOwned .global, acquired⟩ := by
  unfold asks at asked
  split at asked
  · next j c acquired =>
    obtain rfl := beq_iff_eq.mp asked
    exact ⟨c, acquired, rfl⟩
  · cases asked

/-- The first event is the only question of thread `i` for a global permit. -/
def asksFirst {config : Config} (i : ℕ) (events : List (Event (platform permissive config))) : Bool :=
  match events with
  | event :: rest => asks i event && !rest.any (asks i)
  | [] => false

theorem of_asksFirst {config : Config} {i : ℕ} {events : List (Event (platform permissive config))}
    (first : asksFirst i events = true) : ∃ c acquired rest,
      events = .performed i c ⟨.tryAcquireOwned .global, acquired⟩ :: rest ∧ rest.any (asks i) = false := by
  unfold asksFirst at first
  split at first
  · next event rest =>
    obtain ⟨asked, once⟩ := Bool.and_eq_true_iff.mp first
    obtain ⟨c, acquired, rfl⟩ := of_asks asked
    exact ⟨c, acquired, rest, rfl, Bool.not_eq_true' _ ▸ once⟩
  · cases first

/-- A thread that asks once asks in one state. -/
theorem asksIn_unique {config : Config} {i : ℕ} {before after : List (Event (platform permissive config))}
    {middle other : Pool (platform permissive config)} {c : Choice} {acquired : Bool}
    (path : Path (started permissive config) before middle) (early : before.any (asks i) = false)
    (late : after.any (asks i) = false)
    (asked : AsksIn i (before ++ .performed i c ⟨.tryAcquireOwned .global, acquired⟩ :: after) other) :
    other = middle := by
  obtain ⟨before', c', acquired', rest, next, same, path', _⟩ := asked
  have question : asks i
      (.performed i c' ⟨.tryAcquireOwned .global, acquired'⟩ : Event (platform permissive config)) = true := by
    simp [asks]
  have unasked {part : List (Event (platform permissive config))} (quiet : part.any (asks i) = false) :
      .performed i c' ⟨.tryAcquireOwned .global, acquired'⟩ ∉ part := fun member =>
    List.any_eq_false.mp quiet _ member question
  obtain ⟨rfl, _⟩ := (List.append_cons_inj_of_notMem (unasked early) (unasked late)).mp same
  exact path'.unique path

/-- Thread `i` has answered the second tenant. -/
def answersOther {config : Config} (i : ℕ) (expected : Except AppError Response → Bool)
    (pool : Pool (platform permissive config)) : Bool :=
  match pool.threads[i]? with
  | some ⟨.http (.startRun sent ..), _, .done result⟩ =>
      expected result && identifies sent 100 pool.shared.db.store
  | _ => false

theorem of_answersOther {config : Config} {i : ℕ} {expected : Except AppError Response → Bool}
    {pool : Pool (platform permissive config)} (done : answersOther i expected pool = true) :
    ∃ sent agentId body result, pool.Returned i (.http (.startRun sent agentId body)) result ∧
      expected result = true ∧ pool.shared.db.store.authenticates permissive sent 100 := by
  rw [answersOther] at done
  split at done
  · next sent agentId body owned result present =>
    obtain ⟨fine, known⟩ := Bool.and_eq_true_iff.mp done
    exact ⟨sent, agentId, body, result, ⟨owned, present⟩, fine, of_identifies known⟩
  · cases done

/-- The answer to a request that found all permits taken. -/
def saturated : Except AppError Response → Bool
  | .error .schedulerCapacityExceeded => true
  | _ => false

theorem of_saturated {result : Except AppError Response} (full : saturated result = true) :
    result = .error .schedulerCapacityExceeded := by
  unfold saturated at full
  split at full
  · rfl
  · cases full

/-- A request of the second tenant asks when only the first tenant has something else in progress. -/
theorem contended (i held : ℕ) (labels later : List (Label (platform permissive ⟨2, 1⟩)))
    (expected : Except AppError Response → Bool)
    (ran : ((started permissive ⟨2, 1⟩).replay? labels).any (fun outcome =>
      (onlyFor i 1 outcome.2 && !(doneBy i outcome.1).any failed && !outcome.1.any (asks i) &&
        undecided outcome.2 == held) && (outcome.2.replay? later).any fun outcome' =>
          (asksFirst i outcome'.1 && !(doneBy i outcome'.1).any failed) &&
            answersOther i expected outcome'.2) = true) :
    ∃ events middle pool, Path (started permissive ⟨2, 1⟩) events pool ∧ AsksIn i events middle ∧
      OnlyFor i {1} middle ∧ undecided middle = held ∧ (∀ other, AsksIn i events other → other = middle) ∧
        (doneBy i events).any failed = false ∧
      ∃ sent agentId body result, pool.Returned i (.http (.startRun sent agentId body)) result ∧
        expected result = true ∧ pool.shared.db.store.authenticates permissive sent 100 := by
  obtain ⟨before, middle, path, checked⟩ := (started permissive ⟨2, 1⟩).exists_path labels
    (fun events middle => (onlyFor i 1 middle && !(doneBy i events).any failed && !events.any (asks i) &&
      undecided middle == held) && (middle.replay? later).any fun outcome =>
        (asksFirst i outcome.1 && !(doneBy i outcome.1).any failed) && answersOther i expected outcome.2) ran
  obtain ⟨now, afterwards⟩ := Bool.and_eq_true_iff.mp checked
  obtain ⟨after, pool, rest, checked⟩ := middle.exists_path later (fun events pool =>
    (asksFirst i events && !(doneBy i events).any failed) && answersOther i expected pool) afterwards
  simp only [Bool.and_eq_true, Bool.not_eq_true', beq_iff_eq] at now checked
  obtain ⟨⟨⟨only, healthy⟩, early⟩, waiting⟩ := now
  obtain ⟨⟨first, fine⟩, done⟩ := checked
  obtain ⟨c, acquired, tail, rfl, late⟩ := of_asksFirst first
  obtain ⟨next, step, _⟩ := rest.of_cons
  refine ⟨_, middle, pool, path.append rest, ⟨before, c, acquired, tail, next, rfl, path, step⟩, of_onlyFor only,
    waiting, fun other => asksIn_unique path early late, ?_, of_answersOther done⟩
  rw [doneBy_append, List.any_append, healthy, fine]
  rfl

end Scenario

/-- The first tenant has one run in progress, and the run of the second tenant is admitted. -/
theorem capacity_left_served : ∃ events middle pool, Path (started permissive ⟨2, 1⟩) events pool ∧
    AsksIn 8 events middle ∧ OnlyFor 8 {1} middle ∧ ({1} : Finset Uuid).card * 1 + undecided middle < 2 ∧
    ∃ sent agentId body response, pool.Returned 8 (.http (.startRun sent agentId body)) (.ok response) ∧
      pool.shared.db.store.authenticates permissive sent 100 ∧ undecided middle + admitted middle < 2 := by
  obtain ⟨events, middle, pool, path, asks, only, waiting, once, fine, sent, agentId, body,
      result, returned, done, client⟩ :=
    contended 8 0 (twoTenants ++ otherStart 8) (moves 8 160 4) (fun result => result.toBool) (by decide +kernel)
  obtain ⟨room, exactly⟩ := capacity_left path returned
  have left : ({1} : Finset Uuid).card * 1 + undecided middle < 2 := by
    rw [waiting]
    decide
  have admitted_now : result ≠ .error .schedulerCapacityExceeded :=
    room fun other asked => ⟨{1}, once other asked ▸ only, once other asked ▸ left⟩
  cases result with
  | error fault => cases done
  | ok response =>
    exact ⟨events, middle, pool, path, asks, only, left, sent, agentId, body, response, returned, client,
      (exactly fine).mp admitted_now middle asks⟩

/-- The second tenant has nothing else in progress, and the first one may run one of its two requests
only, but the request that is rejected for this reason holds the second permit. -/
theorem capacity_exhausted : ∃ events middle pool, Path (started permissive ⟨2, 1⟩) events pool ∧
    AsksIn 9 events middle ∧ OnlyFor 9 {1} middle ∧ ({1} : Finset Uuid).card * 1 < 2 ∧
    ∃ sent agentId body,
      pool.Returned 9 (.http (.startRun sent agentId body)) (.error .schedulerCapacityExceeded) ∧
      pool.shared.db.store.authenticates permissive sent 100 := by
  obtain ⟨events, middle, pool, path, asks, only, _, _, _, sent, agentId, body, result, returned, done, client⟩ :=
    contended 9 1 (twoTenants ++ [arrive (.startRun headers 22 question)] ++ moves 8 50 9 ++ otherStart 9)
      (moves 9 160 4) saturated (by decide +kernel)
  rw [of_saturated done] at returned
  exact ⟨events, middle, pool, path, asks, only, by decide, sent, agentId, body, returned, client⟩

end AgentPlatform
