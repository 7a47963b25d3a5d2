import AgentPlatform.Interleaving.Pool

/-! # One thread among others

What a thread establishes when all that is known of the others is what they may do to the shared
state while it waits. Unlike a discipline this says nothing about the other threads, so the
surroundings may be as narrow as a single claim about one program needs them: nobody else moves,
or everybody leaves one part of the state alone.
-/

set_option autoImplicit false

namespace Interleaving

open Relation

/-- What a thread may count on. -/
structure Surroundings (M : Machine) where
  /-- Holds of the shared state between any two steps. -/
  sound : M.Shared → Prop
  /-- What a step of another thread may do while this one waits with an operation. -/
  rely : M.sig.Op → M.Shared → M.Shared → Prop
  /-- How the environment may resolve an operation of this thread. -/
  grants : M.sig.Op → M.Choice → M.Shared → Prop

variable {M : Machine} {ε ε' α β : Type}

/-- Each operation of the program is legal, and its result is as promised, in these surroundings. -/
def Surroundings.Ensures (E : Surroundings M)
    (legal : List (Performed M.sig) → Performed M.sig → M.Shared → M.Shared → Prop)
    (post : Except ε α → M.Shared → List (Performed M.sig) → Prop) :
    Program M.sig ε α → M.Shared → List (Performed M.sig) → Prop
  | .done result, s, past => post result s past
  | .call op next, s, past => ∀ t, ReflTransGen (E.rely op) s t → E.sound t → ∀ c owned effect, E.grants op c t →
      M.exec c op owned t = some effect → legal past ⟨op, effect.answer⟩ t effect.shared ∧
        E.Ensures legal post (next effect.answer) effect.shared (past ++ [⟨op, effect.answer⟩])

namespace Surroundings.Ensures

variable {E : Surroundings M} {legal : List (Performed M.sig) → Performed M.sig → M.Shared → M.Shared → Prop}
  {post mid : Except ε α → M.Shared → List (Performed M.sig) → Prop} {s t : M.Shared} {past : List (Performed M.sig)}

/-- The rule for one operation: others keep `P`, and from `P` the operation is legal and the rest goes on. -/
theorem call {P : M.Shared → Prop} {op : M.sig.Op} {next : M.sig.Answer op → Program M.sig ε α} (now : P s)
    (stable : ∀ s t, E.rely op s t → P s → P t)
    (rule : ∀ t c owned effect, P t → E.sound t → E.grants op c t → M.exec c op owned t = some effect →
      legal past ⟨op, effect.answer⟩ t effect.shared ∧
        E.Ensures legal post (next effect.answer) effect.shared (past ++ [⟨op, effect.answer⟩])) :
    E.Ensures legal post (.call op next) s past := by
  intro t moved
  have still : P t := by
    induction moved with
    | refl => exact now
    | tail _ step ih => exact stable _ _ step ih
  exact fun sound c owned effect granted ran => rule t c owned effect still sound granted ran

/-- While the thread waits, what it ensures does not change. -/
theorem rely {op : M.sig.Op} {next : M.sig.Answer op → Program M.sig ε α}
    (ensures : E.Ensures legal post (.call op next) s past) (step : E.rely op s t) :
    E.Ensures legal post (.call op next) t past :=
  fun u moved => ensures u (.head step moved)

theorem handle {program : Program M.sig ε α} {rest : Except ε α → Program M.sig ε' β}
    {post : Except ε' β → M.Shared → List (Performed M.sig) → Prop} (first : E.Ensures legal mid program s past)
    (second : ∀ result s past, mid result s past → E.Ensures legal post (rest result) s past) :
    E.Ensures legal post (program.handle rest) s past := by
  induction program generalizing s past with
  | done result => exact second _ _ _ first
  | call op next ih =>
    intro t moved sound c owned effect granted ran
    obtain ⟨fine, tail⟩ := first t moved sound c owned effect granted ran
    exact ⟨fine, ih _ tail⟩

theorem bind {program : Program M.sig ε α} {rest : α → Program M.sig ε β}
    {post : Except ε β → M.Shared → List (Performed M.sig) → Prop} (first : E.Ensures legal mid program s past)
    (value : ∀ value s past, mid (.ok value) s past → E.Ensures legal post (rest value) s past)
    (error : ∀ fault s past, mid (.error fault) s past → post (.error fault) s past) :
    E.Ensures legal post (program >>= rest) s past := by
  apply handle first
  rintro (fault | result) s past holds
  · exact error fault s past holds
  · exact value result s past holds

theorem onError {program : Program M.sig ε α} {cleanup : Program M.sig ε Unit}
    (first : E.Ensures legal mid program s past)
    (value : ∀ value s past, mid (.ok value) s past → post (.ok value) s past)
    (error : ∀ fault s past, mid (.error fault) s past →
      E.Ensures legal (fun _ => post (.error fault)) cleanup s past) :
    E.Ensures legal post (program.onError cleanup) s past := by
  apply handle first
  rintro (fault | result) s past holds
  · exact handle (error fault s past holds) fun _ _ _ cleaned => cleaned
  · exact value result s past holds

end Surroundings.Ensures

/-! ## Paths in the surroundings -/

/-- The event is an operation of this thread. -/
def Event.IsBy (i : ℕ) (event : Event M) : Prop := ∃ choice what, event = .performed i choice what

/-- All steps of the path are as thread `i` may count on. -/
def Surroundings.Around (E : Surroundings M) (i : ℕ) (first : Pool M) (events : List (Event M)) : Prop :=
  ∀ before event after middle next, events = before ++ event :: after → Path first before middle →
    Step middle event next → E.sound middle.shared ∧
      (∀ choice what, event = .performed i choice what → E.grants what.op choice middle.shared) ∧
      ∀ task owned op rest, middle.threads[i]? = some ⟨task, owned, .call op rest⟩ → ¬ event.IsBy i →
        E.rely op middle.shared next.shared

/-- Whenever thread `i` executes an operation on the path, this holds of it and of the states around it. -/
def EachStep (i : ℕ) (first : Pool M) (events : List (Event M))
    (holds : Performed M.sig → M.Shared → M.Shared → Prop) : Prop :=
  ∀ before choice what after middle next, events = before ++ .performed i choice what :: after →
    Path first before middle → Step middle (.performed i choice what) next → holds what middle.shared next.shared

/-- The other threads keep a property of the shared state. -/
def OthersKeep (i : ℕ) (first : Pool M) (events : List (Event M)) (P : M.Shared → Prop) : Prop :=
  ∀ before event after middle next, events = before ++ event :: after → Path first before middle →
    Step middle event next → ¬ event.IsBy i → P middle.shared → P next.shared

/-- Nobody else moves; others may still arrive. -/
theorem OthersKeep.of_alone {i : ℕ} {first : Pool M} {events : List (Event M)}
    (alone : ∀ event ∈ events, event.IsBy i ∨ ∃ task, event = .arrived task) (P : M.Shared → Prop) :
    OthersKeep i first events P := by
  rintro before event after middle next rfl _ step other holds
  rcases alone event (by simp) with mine | ⟨task, rfl⟩
  · exact absurd mine other
  · cases step with
    | arrive accepted => exact holds

theorem OthersKeep.left {i : ℕ} {first : Pool M} {before after : List (Event M)} {P : M.Shared → Prop}
    (keep : OthersKeep i first (before ++ after) P) : OthersKeep i first before P := by
  rintro start event rest middle next rfl path
  exact keep start event (rest ++ after) middle next (by simp) path

theorem OthersKeep.tail {i : ℕ} {first next : Pool M} {event : Event M} {events : List (Event M)}
    {P : M.Shared → Prop} (keep : OthersKeep i first (event :: events) P) (step : Step first event next) :
    OthersKeep i next events P := by
  rintro before later after middle last rfl path
  exact keep (event :: before) later after middle last rfl ((Path.single step).append path)

theorem EachStep.cons {i : ℕ} {first next : Pool M} {task : M.Task} {events : List (Event M)}
    {holds : Performed M.sig → M.Shared → M.Shared → Prop} (arrives : Step first (.arrived task) next)
    (each : EachStep i next events holds) : EachStep i first (.arrived task :: events) holds := by
  intro before choice what after middle last same path step
  cases before with
  | nil => cases same
  | cons event before =>
    obtain ⟨rfl, rfl⟩ := List.cons.inj same
    obtain ⟨next', arrives', rest⟩ := path.of_cons
    cases arrives
    cases arrives'
    exact each before choice what after middle last rfl rest step

/-- A task that arrives is the last thread of its pool. -/
theorem Path.arrival {first last : Pool M} {task : M.Task} {events : List (Event M)}
    (path : Path first (.arrived task :: events) last) : ∃ next, Step first (.arrived task) next ∧
      Path next events last ∧
      next.shared = first.shared ∧ next.threads[first.threads.length]? = some (Thread.start task M.fresh) := by
  obtain ⟨next, step, rest⟩ := path.of_cons
  cases step with
  | arrive accepted => exact ⟨_, .arrive accepted, rest, rfl, by simp⟩

/-- A thread whose task is never started by another thread has arrived. -/
theorem Path.arrival_of_thread {first last : Pool M} {events : List (Event M)} {i : ℕ} {thread : Thread M}
    (path : Path first events last) (empty : first.threads = []) (present : last.threads[i]? = some thread)
    (unstarted : ∀ choice op owned shared effect started, M.exec choice op owned shared = some effect →
      effect.spawned = some started → started.1 ≠ thread.task) :
    ∃ before after middle, events = before ++ .arrived thread.task :: after ∧ Path first before middle ∧
      Path middle (.arrived thread.task :: after) last ∧ middle.threads.length = i := by
  induction path generalizing thread with
  | nil => simp [empty] at present
  | @snoc middle last events event path step ih =>
    have earlier {old : Thread M} (there : middle.threads[i]? = some old) (same : old.task = thread.task) :
        ∃ before after start, events ++ [event] = before ++ .arrived thread.task :: after ∧ Path first before start ∧
          Path start (.arrived thread.task :: after) last ∧ start.threads.length = i := by
      obtain ⟨before, after, start, rfl, first_part, rest, position⟩ := ih there (same ▸ unstarted)
      rw [same] at rest
      exact ⟨before, after ++ [event], start, by simp [same], first_part, rest.snoc step, position⟩
    cases step with
    | @arrive task accepted =>
      rw [List.getElem?_append] at present
      split at present
      · exact earlier present rfl
      · next outside =>
        rw [List.getElem?_singleton] at present
        split at present
        · cases present
          exact ⟨events, [], middle, rfl, path, .single (.arrive accepted), by omega⟩
        · contradiction
    | @act j task owned op rest choice effect mover ran =>
      rcases Pool.advance_cases (List.getElem?_eq_some_iff.mp mover).1 present with
        ⟨rfl, rfl⟩ | ⟨_, there⟩ | ⟨_, started, spawned, rfl⟩
      · exact earlier mover rfl
      · exact earlier there rfl
      · exact absurd rfl (unstarted _ _ _ _ _ _ ran spawned)

section Paths

variable {E : Surroundings M} {legal : List (Performed M.sig) → Performed M.sig → M.Shared → M.Shared → Prop}
  {post : Except M.Fault M.Value → M.Shared → List (Performed M.sig) → Prop} {pool next last : Pool M}
  {events : List (Event M)} {event : Event M} {i : ℕ} {task : M.Task} {owned : M.Owned}
  {program : Program M.sig M.Fault M.Value} {past : List (Performed M.sig)}

theorem doneBy_other (other : ¬ event.IsBy i) : doneBy i [event] = [] := by
  cases event with
  | arrived task => rfl
  | performed thread choice what =>
    rw [doneBy_performed, if_neg]
    rintro rfl
    exact other ⟨choice, what, rfl⟩

/-- Another thread's step leaves the thread where it is. -/
theorem Step.bystander {thread : Thread M} (step : Step pool event next) (other : ¬ event.IsBy i)
    (present : pool.threads[i]? = some thread) : next.threads[i]? = some thread := by
  cases step with
  | arrive accepted => rwa [List.getElem?_append_left (List.getElem?_eq_some_iff.mp present).1]
  | @act j _ _ _ _ _ _ mover _ =>
    refine Pool.advance_other ?_ present
    rintro rfl
    exact other ⟨_, _, rfl⟩

theorem Path.doneBy_returned {result : Except M.Fault M.Value} (path : Path pool events last)
    (returned : pool.Returned i task result) : doneBy i events = [] := by
  induction path with
  | nil => rfl
  | @snoc middle last events event path step ih =>
    rw [doneBy_append, ih]
    apply doneBy_other
    rintro ⟨choice, what, rfl⟩
    obtain ⟨owned, present⟩ := path.returned returned
    cases step with
    | act mover ran =>
      rw [mover] at present
      cases present

theorem Surroundings.Around.left {before after : List (Event M)} (around : E.Around i pool (before ++ after)) :
    E.Around i pool before := by
  rintro start event rest middle next rfl path step
  exact around start event (rest ++ after) middle next (by simp) path step

theorem Surroundings.Around.right {before after : List (Event M)} {middle : Pool M}
    (around : E.Around i pool (before ++ after)) (path : Path pool before middle) : E.Around i middle after := by
  rintro start event rest state next rfl later step
  exact around (before ++ start) event rest state next (by simp) (path.append later) step

/-- The last step of a path in the surroundings. -/
theorem Surroundings.Around.final (around : E.Around i pool (events ++ [event])) (path : Path pool events last)
    (step : Step last event next) : E.sound last.shared ∧
      (∀ choice what, event = .performed i choice what → E.grants what.op choice last.shared) ∧
      ∀ task owned op rest, last.threads[i]? = some ⟨task, owned, .call op rest⟩ → ¬ event.IsBy i →
        E.rely op last.shared next.shared := around events event [] last next rfl path step

/-- A thread is where it was before somebody else moved. -/
theorem Step.bystander_iff {thread : Thread M} (step : Step pool event next) (other : ¬ event.IsBy i)
    (inside : i < pool.threads.length) : next.threads[i]? = some thread ↔ pool.threads[i]? = some thread := by
  refine ⟨fun present => ?_, step.bystander other⟩
  have there := step.bystander other (List.getElem?_eq_getElem inside)
  rw [present] at there
  rw [List.getElem?_eq_getElem inside, Option.some.inj there]

theorem Path.inside (path : Path pool events last) (inside : i < pool.threads.length) : i < last.threads.length := by
  obtain ⟨thread, present, _⟩ := path.task (List.getElem?_eq_getElem inside)
  exact (List.getElem?_eq_some_iff.mp present).1

/-- A thread that still waits ensures the rest of what it ensured. -/
theorem Surroundings.Ensures.along (path : Path pool events last) (around : E.Around i pool events)
    (present : pool.threads[i]? = some ⟨task, owned, program⟩)
    (ensures : E.Ensures legal post program pool.shared past) {task' : M.Task} {owned' : M.Owned} {op : M.sig.Op}
    {rest : M.sig.Answer op → Program M.sig M.Fault M.Value}
    (waits : last.threads[i]? = some ⟨task', owned', .call op rest⟩) :
    E.Ensures legal post (.call op rest) last.shared (past ++ doneBy i events) := by
  induction path generalizing task' owned' op rest with
  | nil =>
    cases present.symm.trans waits
    simpa using ensures
  | @snoc middle last events event path step ih =>
    obtain ⟨sound, granted, others⟩ := around.final path step
    by_cases mine : event.IsBy i
    · obtain ⟨choice, what, rfl⟩ := mine
      cases step with
      | @act _ task owned op' rest' _ effect mover ran =>
        obtain ⟨_, ensured⟩ := ih around.left mover _ .refl sound choice owned effect (granted _ _ rfl) ran
        have there :=
            (Pool.advance_self mover : (middle.advance i task rest' effect).threads[i]? = _).symm.trans waits
        generalize rest' effect.answer = program at ensured there
        cases there
        rw [doneBy_append, doneBy_performed, if_pos rfl, ← List.append_assoc]
        exact ensured
    · rw [step.bystander_iff mine (path.inside (List.getElem?_eq_some_iff.mp present).1)] at waits
      rw [doneBy_append, doneBy_other mine, List.append_nil]
      exact (ih around.left waits).rely (others _ _ _ _ waits mine)

/-- Each operation of the thread is legal. -/
theorem Surroundings.Ensures.lawful {before after : List (Event M)} {choice : M.Choice} {what : Performed M.sig}
    {middle : Pool M} (around : E.Around i pool (before ++ .performed i choice what :: after))
    (path : Path pool before middle) (step : Step middle (.performed i choice what) next)
    (present : pool.threads[i]? = some ⟨task, owned, program⟩)
    (ensures : E.Ensures legal post program pool.shared past) :
    legal (past ++ doneBy i before) what middle.shared next.shared := by
  obtain ⟨sound, granted, _⟩ := around before _ after middle next rfl path step
  cases step with
  | act mover ran => exact (ensures.along path around.left present mover _ .refl sound _ _ _ (granted _ _ rfl) ran).1

theorem Surroundings.Ensures.eachStep {holds : Performed M.sig → M.Shared → M.Shared → Prop}
    (around : E.Around i pool events) (present : pool.threads[i]? = some ⟨task, owned, program⟩)
    (ensures : E.Ensures (fun _ => holds) post program pool.shared past) : EachStep i pool events holds := by
  rintro before choice what after middle next rfl path step
  exact ensures.lawful around path step present

/-- A thread that has returned had established what it ensures when it returned. -/
theorem Surroundings.Ensures.returned (path : Path pool events last) (around : E.Around i pool events)
    (present : pool.threads[i]? = some ⟨task, owned, program⟩)
    (ensures : E.Ensures legal post program pool.shared past) {result : Except M.Fault M.Value}
    (returned : last.Returned i task result) :
    ∃ before after middle, events = before ++ after ∧ Path pool before middle ∧ Path middle after last ∧
      doneBy i after = [] ∧ post result middle.shared (past ++ doneBy i before) := by
  induction path with
  | nil =>
    obtain ⟨_, found⟩ := returned
    cases present.symm.trans found
    exact ⟨[], [], pool, rfl, .nil pool, .nil pool, rfl, by simpa [Surroundings.Ensures] using ensures⟩
  | @snoc middle last events event path step ih =>
    obtain ⟨sound, granted, others⟩ := around.final path step
    by_cases mine : event.IsBy i
    · obtain ⟨choice, what, rfl⟩ := mine
      cases step with
      | @act _ task owned op rest _ effect mover ran =>
        obtain ⟨_, ensured⟩ :=
          ensures.along path around.left present mover _ .refl sound choice owned effect (granted _ _ rfl) ran
        obtain ⟨_, found⟩ := returned
        have there := (Pool.advance_self mover : (middle.advance i task rest effect).threads[i]? = _).symm.trans found
        generalize rest effect.answer = program at ensured there
        cases there
        refine ⟨_, [], _, (List.append_nil _).symm, path.snoc (.act mover ran), .nil _, rfl, ?_⟩
        rw [doneBy_append, doneBy_performed, if_pos rfl, ← List.append_assoc]
        exact ensured
    · obtain ⟨owned', found⟩ := returned
      rw [step.bystander_iff mine (path.inside (List.getElem?_eq_some_iff.mp present).1)] at found
      obtain ⟨before, after, state, rfl, first, later, quiet, holds⟩ := ih around.left ⟨owned', found⟩
      refine ⟨before, after ++ [event], state, by simp, first, later.snoc step, ?_, holds⟩
      rw [doneBy_append, quiet, doneBy_other mine, List.append_nil]

end Paths

/-! ## Executing one thread -/

/-- The result of a finished thread. -/
def Pool.result? (pool : Pool M) (i : ℕ) : Option (Except M.Fault M.Value) :=
  match pool.threads[i]? with
  | some ⟨_, _, .done result⟩ => some result
  | _ => none

/-- A thread that has a result has returned it. -/
theorem Path.returned_of_result? {first last : Pool M} {events : List (Event M)} {i : ℕ} {thread : Thread M}
    {result : Except M.Fault M.Value} (path : Path first events last) (present : first.threads[i]? = some thread)
    (finished : last.result? i = some result) : last.Returned i thread.task result := by
  obtain ⟨after, found, same⟩ := path.task present
  obtain ⟨task, owned, program⟩ := after
  rw [Pool.result?, found] at finished
  cases program with
  | call op next => cases finished
  | done value =>
    cases finished
    exact ⟨owned, same ▸ found⟩

theorem Pool.replay?_by {pool last : Pool M} {i : ℕ} {choices : List M.Choice} {events : List (Event M)}
    (ran : pool.replay? (choices.map (.act i)) = some (events, last)) :
    ∀ event ∈ events, ∃ choice ∈ choices, ∃ what, event = .performed i choice what := by
  induction choices generalizing pool events with
  | nil => cases ran; simp
  | cons choice rest ih =>
    obtain ⟨event, next, later, rfl, moved, replayed⟩ := replay?_cons ran
    intro other member
    rcases List.mem_cons.mp member with rfl | member
    · obtain ⟨what, rfl⟩ := next?_act moved
      exact ⟨choice, List.mem_cons_self, what, rfl⟩
    · obtain ⟨choice, there, what, rfl⟩ := ih replayed other member
      exact ⟨choice, List.mem_cons_of_mem _ there, what, rfl⟩

/-- A task that arrives and runs alone. -/
theorem Pool.exists_alone {pool : Pool M} (task : M.Task) (accepted : M.arrives task = true) (choices : List M.Choice)
    (check : Except M.Fault M.Value → List (Event M) → Pool M → Bool)
    (ran : ((pool.replay? (.arrive task :: choices.map (.act pool.threads.length))).any fun outcome =>
      (outcome.2.result? pool.threads.length).any fun result => check result outcome.1.tail outcome.2) = true) :
    ∃ more last result, Path pool (.arrived task :: more) last ∧
      (∀ event ∈ more, ∃ choice ∈ choices, ∃ what, event = .performed pool.threads.length choice what) ∧
      last.Returned pool.threads.length task result ∧ check result more last = true ∧
      pool.replay? (.arrive task :: choices.map (.act pool.threads.length)) = some (.arrived task :: more, last) := by
  obtain ⟨⟨events, last⟩, replayed, checked⟩ := (Option.any_eq_true ..).mp ran
  obtain ⟨result, finished, checked⟩ := (Option.any_eq_true ..).mp checked
  obtain ⟨event, next, more, rfl, moved, rest⟩ := replay?_cons replayed
  rw [Pool.next?, if_pos accepted] at moved
  cases moved
  have path := (Path.single (Step.arrive accepted)).append (Pool.replay?_sound rest)
  obtain ⟨next, _, later, _, waiting⟩ := path.arrival
  exact ⟨more, last, result, path, Pool.replay?_by rest, later.returned_of_result? waiting finished,
    checked, replayed⟩

end Interleaving
