import AgentPlatform.Interleaving.Program
import Mathlib.Algebra.GroupWithZero.Nat

/-! # Thread pools, their steps and their histories

A machine gives every operation its effect on the thread's own state and on the shared state; an
effect may start one more thread. A pool runs any number of threads, and the environment may add
further ones at any time. One step lets one thread execute one operation, so a path through the
pool is an arbitrary interleaving. Threads are never removed: a finished one keeps its place and
its result, which makes the position of a thread its name for the whole history.
-/

set_option autoImplicit false

namespace Interleaving

/-- What one operation did: its answer, the new states, and the thread it started, if any. -/
structure Effect (sig : Signature) (Owned Shared Task : Type) (op : sig.Op) where
  answer : sig.Answer op
  owned : Owned
  shared : Shared
  spawned : Option (Task × Owned)

/-- A machine resolves what the code leaves open (fresh names, clocks, failures) by a `Choice`.
An operation that has to wait has no effect at all. -/
structure Machine where
  sig : Signature
  Shared : Type
  Owned : Type
  Choice : Type
  Task : Type
  Fault : Type
  Value : Type
  exec : Choice → (op : sig.Op) → Owned → Shared → Option (Effect sig Owned Shared Task op)
  body : Task → Program sig Fault Value
  arrives : Task → Bool
  fresh : Owned

variable (M : Machine)

structure Thread where
  task : M.Task
  owned : M.Owned
  program : Program M.sig M.Fault M.Value

structure Pool where
  shared : M.Shared
  threads : List (Thread M)

/-- What the scheduler decides: who comes in, and who moves with which choice. -/
inductive Label
  | arrive (task : M.Task)
  | act (thread : ℕ) (choice : M.Choice)

/-- What happened in one step. -/
inductive Event
  | arrived (task : M.Task)
  | performed (thread : ℕ) (choice : M.Choice) (what : Performed M.sig)

variable {M}

def Thread.start (task : M.Task) (owned : M.Owned) : Thread M := ⟨task, owned, M.body task⟩

/-- The thread has returned this result. -/
def Pool.Returned (pool : Pool M) (i : ℕ) (task : M.Task) (result : Except M.Fault M.Value) : Prop :=
  ∃ owned, pool.threads[i]? = some ⟨task, owned, .done result⟩

/-- The pool after thread `i` executed an operation. -/
def Pool.advance (pool : Pool M) (i : ℕ) (task : M.Task) {op : M.sig.Op}
    (next : M.sig.Answer op → Program M.sig M.Fault M.Value)
    (effect : Effect M.sig M.Owned M.Shared M.Task op) : Pool M where
  shared := effect.shared
  threads := pool.threads.set i ⟨task, effect.owned, next effect.answer⟩ ++
    (effect.spawned.map fun started => Thread.start started.1 started.2).toList

inductive Step : Pool M → Event M → Pool M → Prop
  | arrive {pool : Pool M} {task : M.Task} (accepted : M.arrives task = true) :
      Step pool (.arrived task) { pool with threads := pool.threads ++ [Thread.start task M.fresh] }
  | act {pool : Pool M} {i : ℕ} {task : M.Task} {owned : M.Owned} {op : M.sig.Op}
      {next : M.sig.Answer op → Program M.sig M.Fault M.Value} {choice : M.Choice}
      {effect : Effect M.sig M.Owned M.Shared M.Task op}
      (present : pool.threads[i]? = some ⟨task, owned, .call op next⟩)
      (ran : M.exec choice op owned pool.shared = some effect) :
      Step pool (.performed i choice ⟨op, effect.answer⟩) (pool.advance i task next effect)

/-- A finite run with its events in order. -/
inductive Path : Pool M → List (Event M) → Pool M → Prop
  | nil (pool : Pool M) : Path pool [] pool
  | snoc {first middle last : Pool M} {events : List (Event M)} {event : Event M} :
      Path first events middle → Step middle event last → Path first (events ++ [event]) last

namespace Path

variable {first middle last : Pool M} {events before after : List (Event M)}

theorem append (left : Path first before middle) (right : Path middle after last) :
    Path first (before ++ after) last := by
  induction right with
  | nil => simpa using left
  | snoc _ step ih => rw [← List.append_assoc]; exact .snoc ih step

theorem single {event : Event M} (step : Step first event last) : Path first [event] last :=
  .snoc (.nil first) step

theorem of_snoc {event : Event M} (path : Path first (events ++ [event]) last) :
    ∃ middle, Path first events middle ∧ Step middle event last := by
  generalize same : events ++ [event] = all at path
  cases path with
  | nil => simp at same
  | snoc path step =>
    obtain ⟨leading, final⟩ := List.append_inj' same rfl
    cases leading
    cases final
    exact ⟨_, path, step⟩

/-- A run can be cut at any of its events. -/
theorem append_iff : Path first (before ++ after) last ↔
    ∃ middle, Path first before middle ∧ Path middle after last := by
  constructor
  · intro path
    induction after using List.reverseRec generalizing last with
    | nil => exact ⟨last, by simpa using path, .nil last⟩
    | append_singleton after event ih =>
      rw [← List.append_assoc] at path
      obtain ⟨_, path, step⟩ := path.of_snoc
      obtain ⟨middle, left, right⟩ := ih path
      exact ⟨middle, left, .snoc right step⟩
  · rintro ⟨middle, left, right⟩
    exact left.append right

theorem of_cons {event : Event M} (path : Path first (event :: after) last) :
    ∃ next, Step first event next ∧ Path next after last := by
  rw [← List.singleton_append] at path
  obtain ⟨next, now, later⟩ := append_iff.mp path
  rw [← List.nil_append [event]] at now
  obtain ⟨middle, before, step⟩ := now.of_snoc
  generalize nothing : ([] : List (Event M)) = events at before
  cases before with
  | nil => exact ⟨next, step, later⟩
  | snoc _ _ => simp at nothing

/-- A run around one of its events. -/
theorem cut {event : Event M} (path : Path first (before ++ event :: after) last) :
    ∃ middle next, Path first before middle ∧ Step middle event next ∧ Path next after last := by
  rw [List.append_cons] at path
  obtain ⟨next, left, right⟩ := append_iff.mp path
  obtain ⟨middle, earlier, step⟩ := left.of_snoc
  exact ⟨middle, next, earlier, step, right⟩

theorem step_of_mem {event : Event M} (path : Path first events last) (member : event ∈ events) :
    ∃ middle next, Step middle event next := by
  obtain ⟨before, after, rfl⟩ := List.append_of_mem member
  obtain ⟨middle, next, _, step, _⟩ := path.cut
  exact ⟨middle, next, step⟩

end Path

/-- What thread `i` did, in order. -/
def doneBy (i : ℕ) (events : List (Event M)) : List (Performed M.sig) :=
  events.filterMap fun
    | .arrived _ => none
    | .performed thread _ what => if thread = i then some what else none

@[simp] theorem doneBy_nil (i : ℕ) : doneBy i ([] : List (Event M)) = [] := rfl

@[simp] theorem doneBy_append (i : ℕ) (before after : List (Event M)) :
    doneBy i (before ++ after) = doneBy i before ++ doneBy i after := List.filterMap_append

/-- What a thread did up to some event it has done after it. -/
theorem doneBy_subset (i : ℕ) (before after : List (Event M)) : doneBy i before ⊆ doneBy i (before ++ after) := by
  rw [doneBy_append]
  exact List.subset_append_left _ _

@[simp] theorem doneBy_arrived (i : ℕ) (task : M.Task) : doneBy i [Event.arrived task] = [] := rfl

theorem doneBy_performed (i thread : ℕ) (choice : M.Choice) (what : Performed M.sig) :
    doneBy i [Event.performed thread choice what] = if thread = i then [what] else [] := by
  by_cases same : thread = i <;> simp [doneBy, same]

@[simp] theorem doneBy_cons_self (i : ℕ) (choice : M.Choice) (what : Performed M.sig) (after : List (Event M)) :
    doneBy i (Event.performed i choice what :: after) = what :: doneBy i after := by
  simp [doneBy]

theorem mem_doneBy {i : ℕ} {events : List (Event M)} {what : Performed M.sig} :
    what ∈ doneBy i events ↔ ∃ choice, Event.performed i choice what ∈ events := by
  simp only [doneBy, List.mem_filterMap]
  constructor
  · rintro ⟨event, member, same⟩
    cases event with
    | arrived task => simp at same
    | performed thread choice other =>
      simp only [Option.ite_none_right_eq_some, Option.some.injEq] at same
      obtain ⟨rfl, rfl⟩ := same
      exact ⟨choice, member⟩
  · rintro ⟨choice, member⟩
    exact ⟨_, member, by simp⟩

/-- A history of a thread around one of its operations cuts the history of the pool. -/
theorem exists_cut_of_doneBy {i : ℕ} {events : List (Event M)} {past later : List (Performed M.sig)}
    {what : Performed M.sig} (done : doneBy i events = past ++ what :: later) : ∃ before choice after,
      events = before ++ .performed i choice what :: after ∧ doneBy i before = past ∧ doneBy i after = later := by
  obtain ⟨first, rest, rfl, earlier, tail⟩ := List.filterMap_eq_append_iff.mp done
  obtain ⟨quiet, event, after, rfl, silent, now, later⟩ := List.filterMap_eq_cons_iff.mp tail
  cases event with
  | arrived task => cases now
  | performed thread choice other =>
    obtain ⟨rfl, same⟩ := Option.ite_none_right_eq_some.mp now
    cases same
    refine ⟨first ++ quiet, choice, after, by simp, ?_, later⟩
    have nothing : doneBy thread quiet = [] := List.filterMap_eq_nil_iff.mpr silent
    rw [doneBy_append, nothing, List.append_nil]
    exact earlier

section Threads

variable {pool next : Pool M} {event : Event M}

theorem Pool.advance_length (pool : Pool M) (i : ℕ) (task : M.Task) {op : M.sig.Op}
    (rest : M.sig.Answer op → Program M.sig M.Fault M.Value)
    (effect : Effect M.sig M.Owned M.Shared M.Task op) :
    pool.threads.length ≤ (pool.advance i task rest effect).threads.length := by
  simp [Pool.advance]

/-- The mover, as it is after its operation. -/
theorem Pool.advance_self {i : ℕ} {task task' : M.Task} {owned : M.Owned}
    {program : Program M.sig M.Fault M.Value} {op : M.sig.Op}
    {rest : M.sig.Answer op → Program M.sig M.Fault M.Value}
    {effect : Effect M.sig M.Owned M.Shared M.Task op}
    (present : pool.threads[i]? = some ⟨task, owned, program⟩) :
    (pool.advance i task' rest effect).threads[i]? =
      some ⟨task', effect.owned, rest effect.answer⟩ := by
  have bound := (List.getElem?_eq_some_iff.mp present).1
  rw [Pool.advance, List.getElem?_append_left (by simpa using bound), List.getElem?_set_self bound]

/-- Everyone else keeps its place and its program. -/
theorem Pool.advance_other {i j : ℕ} {task : M.Task} {thread : Thread M} {op : M.sig.Op}
    {rest : M.sig.Answer op → Program M.sig M.Fault M.Value}
    {effect : Effect M.sig M.Owned M.Shared M.Task op} (other : i ≠ j)
    (present : pool.threads[j]? = some thread) :
    (pool.advance i task rest effect).threads[j]? = some thread := by
  have bound := (List.getElem?_eq_some_iff.mp present).1
  rw [Pool.advance, List.getElem?_append_left (by simpa using bound), List.getElem?_set_ne other]
  exact present

/-- The started thread comes last. -/
theorem Pool.advance_spawned {i : ℕ} {task : M.Task} {op : M.sig.Op}
    {rest : M.sig.Answer op → Program M.sig M.Fault M.Value}
    {effect : Effect M.sig M.Owned M.Shared M.Task op} {started : M.Task × M.Owned}
    (spawned : effect.spawned = some started) :
    (pool.advance i task rest effect).threads[pool.threads.length]? = some (Thread.start started.1 started.2) := by
  simp [Pool.advance, spawned]

/-- A position of the pool after a step is the mover, an old bystander, or the started thread. -/
theorem Pool.advance_cases {i j : ℕ} {task : M.Task} {op : M.sig.Op} {thread : Thread M}
    {rest : M.sig.Answer op → Program M.sig M.Fault M.Value}
    {effect : Effect M.sig M.Owned M.Shared M.Task op}
    (inside : i < pool.threads.length)
    (present : (pool.advance i task rest effect).threads[j]? = some thread) :
    (j = i ∧ thread = ⟨task, effect.owned, rest effect.answer⟩) ∨
      (j ≠ i ∧ pool.threads[j]? = some thread) ∨
      (j = pool.threads.length ∧ ∃ started, effect.spawned = some started ∧
        thread = Thread.start started.1 started.2) := by
  rw [Pool.advance, List.getElem?_append] at present
  split at present
  · by_cases same : j = i
    · subst same
      rw [List.getElem?_set_self inside] at present
      exact .inl ⟨rfl, (Option.some.inj present).symm⟩
    · rw [List.getElem?_set_ne (Ne.symm same)] at present
      exact .inr (.inl ⟨same, present⟩)
  · next outside =>
    right; right
    simp only [List.length_set] at outside present
    cases started : effect.spawned with
    | none => simp [started] at present
    | some started' =>
      rw [started] at present
      simp only [Option.map_some, Option.toList_some, List.getElem?_singleton] at present
      split at present
      · exact ⟨by omega, started', rfl, (Option.some.inj present).symm⟩
      · contradiction

/-- A quantity of the belongings of all threads. -/
def Pool.total (pool : Pool M) (amount : M.Owned → ℕ) : ℕ := (pool.threads.map fun thread => amount thread.owned).sum

private theorem sum_map_set {α : Type} {rows : List α} (amount : α → ℕ) {i : ℕ} {old : α} (new : α)
    (present : rows[i]? = some old) :
    ((rows.set i new).map amount).sum + amount old = (rows.map amount).sum + amount new := by
  induction rows generalizing i with
  | nil => simp at present
  | cons row rest ih =>
    cases i with
    | zero =>
      obtain rfl : row = old := by simpa using present
      simp only [List.set_cons_zero, List.map_cons, List.sum_cons]
      omega
    | succ i =>
      have tail := ih (by simpa using present : rest[i]? = some old)
      simp only [List.set_cons_succ, List.map_cons, List.sum_cons]
      omega

/-- A step changes a quantity by what the mover gains or loses, and by what the started thread gets. -/
theorem Pool.total_advance {i : ℕ} {task : M.Task} {owned : M.Owned}
    {program : Program M.sig M.Fault M.Value} {op : M.sig.Op}
    {rest : M.sig.Answer op → Program M.sig M.Fault M.Value}
    {effect : Effect M.sig M.Owned M.Shared M.Task op}
    (present : pool.threads[i]? = some ⟨task, owned, program⟩) (amount : M.Owned → ℕ) :
    (pool.advance i task rest effect).total amount + amount owned =
      pool.total amount + amount effect.owned + (effect.spawned.map fun started => amount started.2).getD 0 := by
  have moved :=
    sum_map_set (fun thread : Thread M => amount thread.owned) ⟨task, effect.owned, rest effect.answer⟩ present
  dsimp only at moved
  simp only [Pool.total, Pool.advance, List.map_append, List.sum_append]
  cases effect.spawned with
  | none =>
    simp only [Option.map_none, Option.toList_none, List.map_nil, List.sum_nil, Option.getD_none]
    omega
  | some started =>
    simp only [Option.map_some, Option.toList_some, List.map_cons, List.map_nil, List.sum_cons, List.sum_nil,
      Option.getD_some, Thread.start]
    omega

/-- A finished thread stays where it is. -/
theorem Step.returned {i : ℕ} {task : M.Task} {result : Except M.Fault M.Value}
    (step : Step pool event next) (returned : pool.Returned i task result) :
    next.Returned i task result := by
  obtain ⟨owned, present⟩ := returned
  refine ⟨owned, ?_⟩
  cases step with
  | arrive _ =>
    rw [List.getElem?_append_left (List.getElem?_eq_some_iff.mp present).1]
    exact present
  | @act j _ _ _ _ _ _ mover _ =>
    refine Pool.advance_other ?_ present
    rintro rfl
    rw [mover] at present
    cases present

/-- The task at a position never changes. -/
theorem Step.task {i : ℕ} {thread : Thread M} (step : Step pool event next)
    (present : pool.threads[i]? = some thread) :
    ∃ after, next.threads[i]? = some after ∧ after.task = thread.task := by
  cases step with
  | arrive _ =>
    exact ⟨thread, by rwa [List.getElem?_append_left (List.getElem?_eq_some_iff.mp present).1], rfl⟩
  | @act j _ _ _ _ _ _ mover _ =>
    by_cases same : j = i
    · subst same
      rw [mover] at present
      cases present
      exact ⟨_, Pool.advance_self mover, rfl⟩
    · exact ⟨thread, Pool.advance_other same present, rfl⟩

end Threads

theorem Path.task {first last : Pool M} {events : List (Event M)} {i : ℕ} {thread : Thread M}
    (path : Path first events last) (present : first.threads[i]? = some thread) :
    ∃ after, last.threads[i]? = some after ∧ after.task = thread.task := by
  induction path with
  | nil => exact ⟨thread, present, rfl⟩
  | snoc _ step ih =>
    obtain ⟨middle, found, same⟩ := ih
    obtain ⟨after, there, still⟩ := step.task found
    exact ⟨after, there, still.trans same⟩

theorem Path.returned {first last : Pool M} {events : List (Event M)} {i : ℕ} {task : M.Task}
    {result : Except M.Fault M.Value} (path : Path first events last)
    (returned : first.Returned i task result) : last.Returned i task result := by
  induction path with
  | nil => exact returned
  | snoc _ step ih => exact step.returned ih

/-- A finished thread does nothing more. -/
theorem Path.quiet_of_returned {first last : Pool M} {events : List (Event M)} {i : ℕ} {task : M.Task}
    {result : Except M.Fault M.Value} (path : Path first events last) (returned : first.Returned i task result) :
    doneBy i events = [] := by
  induction path with
  | nil => rfl
  | snoc path step ih =>
    obtain ⟨owned, present⟩ := path.returned returned
    rw [doneBy_append, ih, List.nil_append]
    cases step with
    | arrive _ => exact doneBy_arrived ..
    | @act j _ _ _ _ _ _ mover _ =>
      rw [doneBy_performed, if_neg]
      rintro rfl
      rw [mover] at present
      cases present

/-- The thread that executes an operation is there, with the task it keeps. -/
theorem Step.mover {pool next last : Pool M} {i : ℕ} {choice : M.Choice} {what : Performed M.sig}
    {later : List (Event M)} {thread : Thread M} (step : Step pool (.performed i choice what) next)
    (path : Path next later last) (present : last.threads[i]? = some thread) :
    ∃ before, pool.threads[i]? = some before ∧ before.task = thread.task := by
  cases step with
  | act there ran =>
    obtain ⟨final, found, same⟩ := path.task (Pool.advance_self there)
    cases present.symm.trans found
    exact ⟨_, there, same.symm⟩

/-- Every thread is where its own history has brought the body of its task. -/
theorem Path.follows {first last : Pool M} {events : List (Event M)} (path : Path first events last)
    (empty : first.threads = []) :
    (∀ i thread, last.threads[i]? = some thread →
      (M.body thread.task).Follows (doneBy i events) thread.program) ∧
    ∀ i, last.threads.length ≤ i → doneBy i events = [] := by
  induction path with
  | nil => exact ⟨by simp [empty], by simp⟩
  | @snoc middle last events event path step ih =>
    obtain ⟨follows, quiet⟩ := ih
    cases step with
    | @arrive task accepted =>
      refine ⟨fun i thread present => ?_, fun i outside => ?_⟩
      · rw [doneBy_append, doneBy_arrived, List.append_nil]
        rw [List.getElem?_append] at present
        split at present
        · exact follows i thread present
        · next beyond =>
          obtain rfl := List.mem_singleton.mp (List.mem_of_getElem? present)
          rw [quiet i (by omega)]
          exact .start
      · rw [doneBy_append, doneBy_arrived, List.append_nil]
        exact quiet i (by simp at outside; omega)
    | @act j task owned op next choice effect present ran =>
      have inside := (List.getElem?_eq_some_iff.mp present).1
      refine ⟨fun i thread found => ?_, fun i outside => ?_⟩
      · rw [doneBy_append, doneBy_performed]
        rcases Pool.advance_cases inside found with ⟨rfl, rfl⟩ | ⟨other, found⟩ | ⟨rfl, started, spawned, rfl⟩
        · rw [if_pos rfl]
          exact .step (follows _ _ present) effect.answer
        · rw [if_neg (Ne.symm other), List.append_nil]
          exact follows i thread found
        · rw [if_neg (by omega), List.append_nil, quiet _ (Nat.le_refl _)]
          exact .start
      · have large := middle.advance_length j task next effect
        rw [doneBy_append, doneBy_performed, if_neg (by omega), List.append_nil]
        exact quiet i (by omega)

/-- Whoever has executed something is a thread of the pool. -/
theorem Path.thread_of_performed {first last : Pool M} {events : List (Event M)} {i : ℕ} {choice : M.Choice}
    {what : Performed M.sig} (path : Path first events last) (empty : first.threads = [])
    (member : .performed i choice what ∈ events) : ∃ thread, last.threads[i]? = some thread ∧
      what ∈ doneBy i events ∧ (M.body thread.task).Follows (doneBy i events) thread.program := by
  obtain ⟨follows, quiet⟩ := path.follows empty
  have done : what ∈ doneBy i events := mem_doneBy.mpr ⟨choice, member⟩
  have inside : i < last.threads.length := by
    by_contra outside
    rw [quiet i (by omega)] at done
    cases done
  have present := List.getElem?_eq_getElem inside
  exact ⟨_, present, done, follows i _ present⟩

section Histories

variable {first last : Pool M} {events : List (Event M)} {allowed : List (Performed M.sig) → M.sig.Op → Prop}
  {returns : List (Performed M.sig) → Except M.Fault M.Value → Prop} {i : ℕ} {thread : Thread M}

/-- A thread is where a history of its body leads. -/
theorem Path.along (path : Path first events last) (empty : first.threads = [])
    (present : last.threads[i]? = some thread) (along : (M.body thread.task).Along allowed returns []) :
    thread.program.Along allowed returns (doneBy i events) :=
  ((path.follows empty).1 i thread present).along along

/-- The operations of a thread are allowed when they are executed. -/
theorem Path.along_performed {before after : List (Event M)} {choice : M.Choice} {what : Performed M.sig}
    (path : Path first (before ++ .performed i choice what :: after) last) (empty : first.threads = [])
    (present : last.threads[i]? = some thread) (along : (M.body thread.task).Along allowed returns []) :
    allowed (doneBy i before) what.op := by
  obtain ⟨middle, next, earlier, step, later⟩ := path.cut
  obtain ⟨waiting, there, same⟩ := step.mover later present
  rw [← same] at along
  have waits := earlier.along empty there along
  cases step with
  | act mover ran =>
    cases there.symm.trans mover
    exact waits.1

end Histories

/-- What an event establishes and every step keeps holds ever since. -/
theorem Path.since {first last : Pool M} {events : List (Event M)} {happens : Event M → Prop}
    (path : Path first events last) (P : Pool M → Prop)
    (starts : ∀ before middle event next, Path first before middle → Step middle event next → happens event → P next)
    (keeps : ∀ before middle event next, Path first before middle → Step middle event next → P middle → P next)
    {event : Event M} (member : event ∈ events) (now : happens event) : P last := by
  induction path with
  | nil => cases member
  | snoc path step ih =>
    rcases List.mem_append.mp member with old | new
    · exact keeps _ _ _ _ path step (ih old)
    · obtain rfl := List.mem_singleton.mp new
      exact starts _ _ _ _ path step now

/-- What holds after a run has held before it, or became true in one of its steps. -/
theorem Path.became {first last : Pool M} {events : List (Event M)} (path : Path first events last)
    (P : Pool M → Prop) (now : P last) :
    P first ∨ ∃ before event after middle next, events = before ++ event :: after ∧ Path first before middle ∧
      Step middle event next ∧ Path next after last ∧ ¬ P middle ∧ P next := by
  induction path with
  | nil => exact .inl now
  | @snoc middle last events event path step ih =>
    by_cases already : P middle
    · rcases ih already with start | ⟨before, earlier, after, state, next, rfl, first, moved, rest, new, since⟩
      · exact .inl start
      · exact .inr ⟨before, earlier, after ++ [event], state, next, by simp, first, moved, rest.snoc step, new, since⟩
    · exact .inr ⟨events, event, [], middle, last, rfl, path, step, .nil last, already, now⟩

/-- No two events are of this kind. -/
def AtMostOnce (happens : Event M → Prop) (events : List (Event M)) : Prop :=
  events.Pairwise fun earlier later => happens earlier → ¬ happens later

theorem AtMostOnce.eq {happens : Event M → Prop} {events : List (Event M)} (once : AtMostOnce happens events)
    {a b : Event M} (left : a ∈ events) (right : b ∈ events) (first : happens a) (second : happens b) : a = b := by
  induction events with
  | nil => cases left
  | cons event rest ih =>
    obtain ⟨apart, others⟩ := List.pairwise_cons.mp once
    rcases List.mem_cons.mp left with rfl | earlier <;> rcases List.mem_cons.mp right with rfl | later
    · rfl
    · exact absurd second (apart b later first)
    · exact absurd first (apart a earlier second)
    · exact ih others earlier later

/-- Something happens at most once if it cannot happen after it has happened. -/
theorem Path.atMostOnce {first last : Pool M} {events : List (Event M)} {happens : Event M → Prop}
    (path : Path first events last)
    (once : ∀ before middle event next, Path first before middle → Step middle event next → happens event →
      ∀ earlier ∈ before, ¬ happens earlier) : AtMostOnce happens events := by
  induction path with
  | nil => exact .nil
  | snoc path step ih =>
    refine List.pairwise_append.mpr ⟨ih, List.pairwise_singleton _ _, ?_⟩
    intro earlier member later last now again
    obtain rfl := List.mem_singleton.mp last
    exact once _ _ _ _ path step again earlier member now

/-- The choice of the environment determines the step. -/
theorem Step.unique {pool next next' : Pool M} {event : Event M} (step : Step pool event next)
    (again : Step pool event next') : next = next' := by
  cases step with
  | arrive accepted => cases again; rfl
  | act present ran =>
    generalize happened : Event.performed _ _ _ = event at again
    cases again with
    | arrive accepted => cases happened
    | act present' ran' =>
      injection happened with thread choice what
      subst thread choice
      cases present.symm.trans present'
      cases ran.symm.trans ran'
      rfl

theorem Path.unique {first last last' : Pool M} {events : List (Event M)} (path : Path first events last)
    (again : Path first events last') : last = last' := by
  induction path generalizing last' with
  | nil =>
    generalize nothing : ([] : List (Event M)) = events at again
    cases again with
    | nil => rfl
    | snoc _ _ => simp at nothing
  | snoc path step ih =>
    obtain ⟨middle, earlier, step'⟩ := again.of_snoc
    obtain rfl := ih earlier
    exact step.unique step'

/-- A thread can run to its end alone, if no operation has to wait whatever the state is. -/
theorem Pool.completes {R : M.Shared → M.Shared → Prop} (refl : ∀ s, R s s) (trans : ∀ s t u, R s t → R t u → R s u)
    (runs : ∀ op owned s, ∃ choice effect, M.exec choice op owned s = some effect ∧ R s effect.shared)
    {pool : Pool M} {i : ℕ} {task : M.Task} {owned : M.Owned} {program : Program M.sig M.Fault M.Value}
    (present : pool.threads[i]? = some ⟨task, owned, program⟩) :
    ∃ events last result, Path pool events last ∧ last.Returned i task result ∧ R pool.shared last.shared ∧
      ∀ j ≠ i, doneBy j events = [] ∧ ∀ thread, pool.threads[j]? = some thread → last.threads[j]? = some thread := by
  induction program generalizing pool owned with
  | done result => exact ⟨[], pool, result, .nil pool, ⟨owned, present⟩, refl _, fun j _ => ⟨rfl, fun _ same => same⟩⟩
  | call op next ih =>
    obtain ⟨choice, effect, ran, moved⟩ := runs op owned pool.shared
    obtain ⟨events, last, result, path, returned, later, others⟩ := ih effect.answer (Pool.advance_self present)
    refine ⟨.performed i choice ⟨op, effect.answer⟩ :: events, last, result,
      (Path.single (.act present ran)).append path, returned, trans _ _ _ moved later, fun j other => ⟨?_, ?_⟩⟩
    · rw [← List.singleton_append, doneBy_append, doneBy_performed, if_neg (Ne.symm other), (others j other).1]
      rfl
    · exact fun thread there => (others j other).2 thread (Pool.advance_other (Ne.symm other) there)

/-! ## Executing a schedule -/

/-- Follow one scheduling decision, if it is possible. -/
def Pool.next? (pool : Pool M) : Label M → Option (Event M × Pool M)
  | .arrive task =>
      if M.arrives task then
        some (.arrived task, { pool with threads := pool.threads ++ [Thread.start task M.fresh] })
      else none
  | .act i choice =>
      match pool.threads[i]? with
      | some ⟨task, owned, .call op next⟩ =>
          (M.exec choice op owned pool.shared).map fun effect =>
            (.performed i choice ⟨op, effect.answer⟩, pool.advance i task next effect)
      | _ => none

/-- Follow a whole schedule. -/
def Pool.replay? (pool : Pool M) : List (Label M) → Option (List (Event M) × Pool M)
  | [] => some ([], pool)
  | label :: rest =>
      (pool.next? label).bind fun (event, next) =>
        (next.replay? rest).map fun (events, last) => (event :: events, last)

theorem Pool.next?_sound {pool next : Pool M} {label : Label M} {event : Event M}
    (moved : pool.next? label = some (event, next)) : Step pool event next := by
  cases label with
  | arrive task =>
    simp only [Pool.next?, Option.ite_none_right_eq_some, Option.some.injEq, Prod.mk.injEq] at moved
    obtain ⟨accepted, rfl, rfl⟩ := moved
    exact .arrive accepted
  | act i choice =>
    simp only [Pool.next?] at moved
    split at moved
    · next present =>
      obtain ⟨effect, ran, same⟩ := Option.map_eq_some_iff.mp moved
      cases same
      exact .act present ran
    · contradiction

/-- The event of a thread that is told to act. -/
theorem Pool.next?_act {pool next : Pool M} {i : ℕ} {choice : M.Choice} {event : Event M}
    (moved : pool.next? (.act i choice) = some (event, next)) : ∃ what, event = .performed i choice what := by
  simp only [Pool.next?] at moved
  split at moved
  · obtain ⟨effect, _, same⟩ := Option.map_eq_some_iff.mp moved
    cases same
    exact ⟨_, rfl⟩
  · contradiction

/-- The first decision of an executed schedule, and the rest. -/
theorem Pool.replay?_cons {pool last : Pool M} {label : Label M} {labels : List (Label M)} {events : List (Event M)}
    (ran : pool.replay? (label :: labels) = some (events, last)) : ∃ event next later, events = event :: later ∧
      pool.next? label = some (event, next) ∧ next.replay? labels = some (later, last) := by
  obtain ⟨⟨event, next⟩, moved, tail⟩ := Option.bind_eq_some_iff.mp ran
  obtain ⟨⟨later, last'⟩, replayed, same⟩ := Option.map_eq_some_iff.mp tail
  cases same
  exact ⟨event, next, later, rfl, moved, replayed⟩

/-- An executed schedule is a path of the pool. -/
theorem Pool.replay?_sound {pool last : Pool M} {labels : List (Label M)} {events : List (Event M)}
    (ran : pool.replay? labels = some (events, last)) : Path pool events last := by
  induction labels generalizing pool events with
  | nil =>
    cases ran
    exact .nil _
  | cons label rest ih =>
    obtain ⟨event, next, later, rfl, moved, replayed⟩ := replay?_cons ran
    exact (Path.single (Pool.next?_sound moved)).append (ih replayed)

/-- The choices on the path are those of the schedule. -/
theorem Pool.replay?_labels {pool last : Pool M} {labels : List (Label M)} {events : List (Event M)}
    (ran : pool.replay? labels = some (events, last)) {i : ℕ} {choice : M.Choice} {what : Performed M.sig}
    (member : .performed i choice what ∈ events) : .act i choice ∈ labels := by
  induction labels generalizing pool events with
  | nil =>
    cases ran
    cases member
  | cons label rest ih =>
    obtain ⟨event, next, later, rfl, moved, replayed⟩ := replay?_cons ran
    rcases List.mem_cons.mp member with rfl | old
    · refine List.mem_cons.mpr (.inl ?_)
      cases label with
      | arrive task =>
        simp only [Pool.next?, Option.ite_none_right_eq_some, Option.some.injEq, Prod.mk.injEq] at moved
        cases moved.2.1
      | act j other =>
        obtain ⟨_, same⟩ := next?_act moved
        cases same
        rfl
    · exact List.mem_cons_of_mem _ (ih replayed old)

/-- Every event of the schedule passes a check in the state in which it happens. -/
def Pool.replayAll (check : Pool M → Event M → Bool) (pool : Pool M) : List (Label M) → Bool
  | [] => true
  | label :: rest => (pool.next? label).all fun (event, next) => check pool event && next.replayAll check rest

theorem Pool.replayAll_each {check : Pool M → Event M → Bool} {pool last middle : Pool M} {labels : List (Label M)}
    {events before after : List (Event M)} {event : Event M} (all : pool.replayAll check labels = true)
    (ran : pool.replay? labels = some (events, last)) (cut : events = before ++ event :: after)
    (path : Path pool before middle) : check middle event = true := by
  induction labels generalizing pool events before with
  | nil =>
    cases ran
    simp at cut
  | cons label rest ih =>
    obtain ⟨now, next, later, rfl, moved, replayed⟩ := replay?_cons ran
    simp only [Pool.replayAll, moved, Option.all_some, Bool.and_eq_true] at all
    cases before with
    | nil =>
      obtain ⟨rfl, _⟩ := List.cons.inj cut
      exact path.unique (.nil pool) ▸ all.1
    | cons first before =>
      obtain ⟨rfl, rest⟩ := List.cons.inj cut
      obtain ⟨next', step, onward⟩ := path.of_cons
      exact ih all.2 replayed rest ((next?_sound moved).unique step ▸ onward)

/-- A schedule that leads to a state of some kind is a path to such a state. -/
theorem Pool.exists_path {pool : Pool M} (labels : List (Label M)) (check : List (Event M) → Pool M → Bool)
    (ran : (pool.replay? labels).any (fun outcome => check outcome.1 outcome.2) = true) :
    ∃ events last, Path pool events last ∧ check events last = true := by
  obtain ⟨⟨events, last⟩, replayed, checked⟩ := (Option.any_eq_true ..).mp ran
  exact ⟨events, last, replay?_sound replayed, checked⟩

end Interleaving
