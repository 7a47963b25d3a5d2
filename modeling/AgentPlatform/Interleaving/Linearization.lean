import AgentPlatform.Interleaving.Surroundings

/-! # Linearization

An object is specified by what a single call, with its reply, may do to it. Threads implement the
object if a call takes effect at one of the operations of its thread, its point, and all other
operations leave the object alone. Every interleaving is then explained by the calls in the order of
their points: one after the other they lead to the state that was reached, and a call comes before
every call of a thread that arrives only after the first one has returned.
-/

set_option autoImplicit false

namespace Interleaving

structure Specification where
  State : Type
  Call : Type
  Reply : Type
  effect : State → Call → Reply → State → Prop

namespace Specification

variable {S : Specification} {s t u : S.State} {done more : List (S.Call × S.Reply)}

/-- These calls, one after the other. -/
inductive Runs (S : Specification) (s : S.State) : List (S.Call × S.Reply) → S.State → Prop
  | nil : Runs S s [] s
  | snoc {done : List (S.Call × S.Reply)} {t u : S.State} {call : S.Call} {reply : S.Reply} (runs : Runs S s done t)
      (effect : S.effect t call reply u) : Runs S s (done ++ [(call, reply)]) u

theorem Runs.eq_of_nil (runs : S.Runs s [] t) : t = s := by
  generalize same : ([] : List (S.Call × S.Reply)) = done at runs
  cases runs with
  | nil => rfl
  | snoc runs effect => simp at same

/-- What a call establishes and every call keeps holds ever since. -/
theorem Runs.since (P : S.State → Prop) (keeps : ∀ s call reply t, S.effect s call reply t → P s → P t)
    (runs : S.Runs s done t) {call : S.Call} {reply : S.Reply} (member : (call, reply) ∈ done)
    (starts : ∀ s t, S.effect s call reply t → P t) : P t := by
  induction runs with
  | nil => cases member
  | snoc runs effect ih =>
    rcases List.mem_append.mp member with old | new
    · exact keeps _ _ _ _ effect (ih old)
    · cases List.mem_singleton.mp new
      exact starts _ _ effect

end Specification

/-- Collect what each element of a list contributes after the elements before it. -/
def collect {α β : Type} (contribution : List α → α → Option β) : List α → List α → List β
  | _, [] => []
  | past, element :: rest => (contribution past element).toList ++ collect contribution (past ++ [element]) rest

theorem collect_append {α β : Type} {contribution : List α → α → Option β} (past first later : List α) :
    collect contribution past (first ++ later) =
      collect contribution past first ++ collect contribution (past ++ first) later := by
  induction first generalizing past with
  | nil => simp [collect]
  | cons element rest ih =>
    simp only [List.cons_append, collect, ih, List.append_assoc]
    rfl

/-- The object as the shared state shows it, and the operations at which calls take effect. -/
structure Implementation (M : Machine) (S : Specification) where
  state : M.Shared → S.State
  point : M.Task → List (Performed M.sig) → Performed M.sig → Option (S.Call × S.Reply)

namespace Implementation

variable {M : Machine} {S : Specification} (I : Implementation M S)

/-- The calls of a thread that have taken effect. -/
def calls (task : M.Task) (past : List (Performed M.sig)) : List (S.Call × S.Reply) := collect (I.point task) [] past

@[simp] theorem calls_nil (task : M.Task) : I.calls task [] = [] := rfl

@[simp] theorem calls_snoc (task : M.Task) (past : List (Performed M.sig)) (what : Performed M.sig) :
    I.calls task (past ++ [what]) = I.calls task past ++ (I.point task past what).toList := by
  simp [calls, collect_append, collect]

/-- The call that takes effect at an event, with the thread that made it. -/
def entry (tasks : ℕ → M.Task) (past : List (Event M)) : Event M → Option (ℕ × S.Call × S.Reply)
  | .arrived _ => none
  | .performed i _ what => (I.point (tasks i) (doneBy i past) what).map fun call => (i, call)

/-- All calls in the order of their points. -/
def history (tasks : ℕ → M.Task) (events : List (Event M)) : List (ℕ × S.Call × S.Reply) :=
  collect (I.entry tasks) [] events

@[simp] theorem history_snoc (tasks : ℕ → M.Task) (events : List (Event M)) (event : Event M) :
    I.history tasks (events ++ [event]) = I.history tasks events ++ (I.entry tasks events event).toList := by
  simp [history, collect_append, collect]

/-- The step has the effect of the call that it decides, or none. -/
def Decides (s t : M.Shared) : Option (S.Call × S.Reply) → Prop
  | none => I.state t = I.state s
  | some (call, reply) => S.effect (I.state s) call reply (I.state t)

end Implementation

/-- The calls of thread `i`. -/
def callsBy {α : Type} (i : ℕ) (history : List (ℕ × α)) : List α :=
  history.filterMap fun entry => if entry.1 = i then some entry.2 else none

/-- The calls of thread `i` come before those of thread `j`. -/
def Precedes {α : Type} (i j : ℕ) (history : List (ℕ × α)) : Prop :=
  ∃ first later, history = first ++ later ∧ callsBy j first = [] ∧ callsBy i later = []

theorem mem_of_mem_callsBy {α : Type} {i : ℕ} {history : List (ℕ × α)} {call : α}
    (member : call ∈ callsBy i history) : call ∈ history.map Prod.snd := by
  obtain ⟨⟨j, other⟩, there, same⟩ := List.mem_filterMap.mp member
  obtain ⟨_, same⟩ := Option.ite_none_right_eq_some.mp same
  cases same
  exact List.mem_map_of_mem there

section Paths

variable {M : Machine} {S : Specification} {I : Implementation M S} {first middle last : Pool M}
  {events before after : List (Event M)} {tasks : ℕ → M.Task} {i j : ℕ}

/-- The tasks of the threads. -/
def Assigned (tasks : ℕ → M.Task) (pool : Pool M) : Prop :=
  ∀ (i : ℕ) (thread : Thread M), pool.threads[i]? = some thread → tasks i = thread.task

theorem Assigned.earlier (assigned : Assigned tasks last) (path : Path first events last) : Assigned tasks first := by
  intro i thread present
  obtain ⟨later, there, same⟩ := path.task present
  exact (assigned i later there).trans same

theorem exists_assigned (pool : Pool M) (some_task : M.Task) : ∃ tasks, Assigned tasks pool := by
  refine ⟨fun i => (pool.threads[i]?.map Thread.task).getD some_task, fun i thread present => ?_⟩
  simp [present]

/-- Every step of the path decides what its point says. -/
def Implementation.Linearizes (I : Implementation M S) (first : Pool M) : Prop :=
  ∀ before i choice what middle next thread, Path first before middle → Step middle (.performed i choice what) next →
    middle.threads[i]? = some thread →
      I.Decides middle.shared next.shared (I.point thread.task (doneBy i before) what)

/-- The calls one after the other lead to the state that was reached. -/
theorem Path.runs (path : Path first events last) (linearizes : I.Linearizes first) (assigned : Assigned tasks last) :
    S.Runs (I.state first.shared) ((I.history tasks events).map Prod.snd) (I.state last.shared) := by
  induction path with
  | nil => exact .nil
  | @snoc middle last events event path step ih =>
    have runs := ih (assigned.earlier (.single step))
    rw [I.history_snoc, List.map_append]
    cases step with
    | arrive accepted => simpa [Implementation.entry] using runs
    | @act i task owned op rest choice effect present ran =>
      have step := Step.act present ran
      have decides := linearizes _ _ _ _ _ _ _ path step present
      have mover : tasks i = task := assigned.earlier (.single step) i _ present
      rw [Implementation.entry, mover]
      cases point : I.point task (doneBy i events) ⟨op, effect.answer⟩ with
      | none =>
        rw [point] at decides
        rw [show I.state (middle.advance i task rest effect).shared = I.state middle.shared from decides]
        simpa using runs
      | some call =>
        rw [point] at decides
        exact .snoc runs decides

/-- The history has the calls of each thread as the thread made them. -/
theorem callsBy_history (events : List (Event M)) : callsBy i (I.history tasks events) = I.calls (tasks i)
    (doneBy i events) := by
  induction events using List.reverseRec with
  | nil => rfl
  | append_singleton events event ih =>
    rw [I.history_snoc, callsBy, List.filterMap_append, ← callsBy, ih, doneBy_append]
    cases event with
    | arrived task => simp [Implementation.entry]
    | performed j choice what =>
      rw [doneBy_performed]
      split
      · next same =>
        subst same
        rw [I.calls_snoc]
        cases point : I.point (tasks j) (doneBy j events) what <;> simp [Implementation.entry, point]
      · next other =>
        cases point : I.point (tasks j) (doneBy j events) what <;> simp [Implementation.entry, point, other]

/-- A call of a thread that has returned comes before those of the threads that arrive later. -/
theorem precedes (path : Path first before middle) (later : Path middle after last) (empty : first.threads = [])
    {task : M.Task} {result : Except M.Fault M.Value} (returned : middle.Returned i task result)
    (absent : middle.threads.length ≤ j) : Precedes i j (I.history tasks (before ++ after)) := by
  have quiet := later.doneBy_returned returned
  refine ⟨I.history tasks before, collect (I.entry tasks) before after, ?_, ?_, ?_⟩
  · rw [Implementation.history, collect_append]
    rfl
  · rw [callsBy_history, (path.follows empty).2 j absent]
    rfl
  · have all : callsBy i (I.history tasks (before ++ after)) = callsBy i (I.history tasks before) := by
      rw [callsBy_history, callsBy_history, doneBy_append, quiet, List.append_nil]
    rw [Implementation.history, collect_append, callsBy, List.filterMap_append] at all
    exact List.append_right_eq_self.mp all

/-- An interleaving is explained by the calls in this order. -/
structure Linearization (I : Implementation M S) (first : Pool M) (events : List (Event M)) (last : Pool M)
    (history : List (ℕ × S.Call × S.Reply)) : Prop where
  runs : S.Runs (I.state first.shared) (history.map Prod.snd) (I.state last.shared)
  calls : ∀ (i : ℕ) (thread : Thread M), last.threads[i]? = some thread →
    callsBy i history = I.calls thread.task (doneBy i events)
  absent : ∀ i, last.threads.length ≤ i → callsBy i history = []
  order : ∀ before after middle i j task result, events = before ++ after → Path first before middle →
    Path middle after last → middle.Returned i task result → middle.threads.length ≤ j → Precedes i j history

theorem Path.linearization (path : Path first events last) (empty : first.threads = [])
    (linearizes : I.Linearizes first) (some_task : M.Task) :
    ∃ history, Linearization I first events last history := by
  obtain ⟨tasks, assigned⟩ := exists_assigned last some_task
  refine ⟨I.history tasks events, path.runs linearizes assigned, fun i thread present => ?_, fun i outside => ?_, ?_⟩
  · rw [callsBy_history, assigned i thread present]
  · rw [callsBy_history, (path.follows empty).2 i outside]
    rfl
  · rintro before after middle i j task result rfl earlier later returned absent
    exact precedes earlier later empty returned absent

end Paths

end Interleaving
