import AgentPlatform.Interleaving.Pool

/-! # Protocols

A protocol is an automaton over executed operations. It says which operation may come next after
what a thread has done so far. A program obeys the protocol if each of its operations is allowed in
the state that its history leads to, whatever the answers were, and each of its results is proper in
the state in which it is reached. The rules below verify one program at a time, and `Path.obeys`
turns them into a fact about every thread of every interleaving.
-/

set_option autoImplicit false

namespace Interleaving

structure Protocol (sig : Signature) where
  State : Type
  next : State → Performed sig → State
  allows : State → sig.Op → Prop

variable {sig : Signature} {P : Protocol sig}

/-- The state that a history leads to. -/
def Protocol.after (P : Protocol sig) (state : P.State) (past : List (Performed sig)) :
    P.State := past.foldl P.next state

namespace Program

variable {ε ε' α β : Type} {state : P.State} {ends mid : P.State → Except ε α → Prop}

def Obeys (P : Protocol sig) (ends : P.State → Except ε α → Prop) : Program sig ε α → P.State → Prop
  | .done result, state => ends state result
  | .call op next, state => P.allows state op ∧ ∀ answer, (next answer).Obeys P ends (P.next state ⟨op, answer⟩)

@[simp] theorem obeys_done {result : Except ε α} : (Program.done result).Obeys P ends state ↔
    ends state result := .rfl

@[simp] theorem obeys_pure {value : α} : (pure value : Program sig ε α).Obeys P ends state ↔
    ends state (.ok value) := .rfl

@[simp] theorem obeys_throw {fault : ε} : (throw fault : Program sig ε α).Obeys P ends state ↔
    ends state (.error fault) := .rfl

theorem Obeys.mono {program : Program sig ε α} (obeys : program.Obeys P mid state)
    (weaker : ∀ state result, mid state result → ends state result) : program.Obeys P ends state := by
  induction program generalizing state with
  | done result => exact weaker state result obeys
  | call op next ih => exact ⟨obeys.1, fun answer => ih answer (obeys.2 answer)⟩

theorem Obeys.handle (mid : P.State → Except ε α → Prop) {ends : P.State → Except ε' β → Prop}
    {program : Program sig ε α} {rest : Except ε α → Program sig ε' β} (first : program.Obeys P mid state)
    (second : ∀ state result, mid state result → (rest result).Obeys P ends state) :
    (program.handle rest).Obeys P ends state := by
  induction program generalizing state with
  | done result => exact second state result first
  | call op next ih => exact ⟨first.1, fun answer => ih answer (first.2 answer)⟩

theorem Obeys.bind (mid : P.State → Except ε α → Prop) {ends : P.State → Except ε β → Prop}
    {program : Program sig ε α} {rest : α → Program sig ε β} (first : program.Obeys P mid state)
    (value : ∀ state value, mid state (.ok value) → (rest value).Obeys P ends state)
    (error : ∀ state fault, mid state (.error fault) → ends state (.error fault)) :
    (program >>= rest).Obeys P ends state := by
  apply Obeys.handle mid first
  rintro state (fault | result) holds
  · exact error state fault holds
  · exact value state result holds

/-- A program that is cleaned up after when it fails. -/
theorem Obeys.onError (mid : P.State → Except ε α → Prop) {program : Program sig ε α} {cleanup : Program sig ε Unit}
    (first : program.Obeys P mid state) (value : ∀ state value, mid state (.ok value) → ends state (.ok value))
    (error : ∀ state fault, mid state (.error fault) →
      cleanup.Obeys P (fun state _ => ends state (.error fault)) state) : (program.onError cleanup).Obeys P
        ends state := by
  apply Obeys.handle mid first
  rintro state (fault | result) holds
  · exact Obeys.handle _ (error state fault holds) fun _ _ ended => ended
  · exact value state result holds

/-- Operations that the protocol allows in a state and that do not lead out of it. -/
theorem Obeys.of_uses {idle : sig.Op → Prop} {program : Program sig ε α} (uses : program.Uses idle)
    (allowed : ∀ op, idle op → P.allows state op) (stays : ∀ op answer, idle op → P.next state ⟨op, answer⟩ = state) :
    program.Obeys P (fun later _ => later = state) state := by
  induction program with
  | done result => rfl
  | call op next ih =>
    refine ⟨allowed op uses.1, fun answer => ?_⟩
    rw [stays op answer uses.1]
    exact ih answer (uses.2 answer)

/-- A program obeys the protocol from wherever its own history has brought it. -/
theorem Follows.obeys {program rest : Program sig ε α} {past : List (Performed sig)}
    (follows : Follows program past rest) (obeys : program.Obeys P ends state) :
    rest.Obeys P ends (P.after state past) := by
  induction follows with
  | start => exact obeys
  | step follows answer ih =>
    rw [Protocol.after, List.foldl_append]
    exact ih.2 answer

end Program

section Threads

variable {M : Machine} {P : Protocol M.sig} {start : P.State} {ends : P.State → Except M.Fault M.Value → Prop}
  {first last : Pool M} {events : List (Event M)} {i : ℕ} {thread : Thread M}

/-- Where thread `i` stands in the protocol. -/
def Protocol.standing (P : Protocol M.sig) (start : P.State) (i : ℕ) (events : List (Event M)) : P.State :=
  P.after start (doneBy i events)

@[simp] theorem Protocol.standing_arrived {task : M.Task} :
    P.standing start i (events ++ [Event.arrived task]) = P.standing start i events := by
  simp [standing]

/-- An operation moves the thread that executes it, and nobody else. -/
theorem Protocol.standing_performed {j : ℕ} {choice : M.Choice} {what : Performed M.sig} :
    P.standing start i (events ++ [.performed j choice what]) =
      if j = i then P.next (P.standing start i events) what else P.standing start i events := by
  rw [standing, doneBy_append, doneBy_performed]
  split
  · simp [standing, after]
  · simp [standing]

theorem Path.obeys (path : Path first events last) (empty : first.threads = [])
    (all : ∀ task, (M.body task).Obeys P ends start) (present : last.threads[i]? = some thread) :
    thread.program.Obeys P ends (P.standing start i events) :=
  ((path.follows empty).1 i thread present).obeys (all thread.task)

/-- A thread that has not arrived yet stands at the start. -/
theorem Path.standing_absent (path : Path first events last) (empty : first.threads = [])
    (absent : last.threads.length ≤ i) : P.standing start i events = start := by
  rw [Protocol.standing, (path.follows empty).2 i absent]
  rfl

end Threads

end Interleaving
