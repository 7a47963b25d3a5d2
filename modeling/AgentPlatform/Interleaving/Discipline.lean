import AgentPlatform.Interleaving.Pool
import Mathlib.Data.Set.Basic

/-! # Ownership disciplines for interleaved threads

A discipline names the parts of the shared state that a thread may own (its tokens) and says what
any step at all may do to that state. A thread is safe when each of its operations, executed in
whatever state the others may have produced, keeps the shared state valid, leaves every foreign
token alone and gives away only what it owns or has just created. Safety is a statement about one
thread with its claim; `Discipline.holds_of_path` combines safe threads into a fact about every
path of the pool. The rules `Safe.bind`, `Safe.call` and `Safe.mono` verify one program at a time.
-/

set_option autoImplicit false

namespace Interleaving

open Relation

/-- The parts of the shared state that can be owned, and what every step must respect. -/
structure Discipline (M : Machine) where
  Token : Type
  /-- Holds of the shared state between any two steps. -/
  valid : M.Shared → Prop
  /-- What one step of any thread may do to the shared state. -/
  evolves : M.Shared → M.Shared → Prop
  /-- The part named by the token exists. -/
  lives : Token → M.Shared → Prop
  /-- The part named by the token is the same in both states. -/
  same : Token → M.Shared → M.Shared → Prop
  /-- The operation refers to the part named by the token. -/
  names : M.sig.Op → Token → Prop
  /-- What a thread with this claim and these belongings guarantees throughout. -/
  holding : M.Task → Set Token → M.Owned → M.Shared → Prop
  /-- What each executed operation guarantees, given what its thread had done before. -/
  legal : M.Task → List (Performed M.sig) → Performed M.sig → M.Shared → M.Shared → Prop
  /-- What a task may assume when it starts. -/
  enters : M.Task → Set Token → M.Owned → M.Shared → Prop
  /-- What a task has established when it returns. -/
  returns : M.Task → Except M.Fault M.Value → Set Token → M.Owned → M.Shared →
    List (Performed M.sig) → Prop
  lives_same : ∀ {token s t}, lives token s → same token s t → lives token t
  holding_stable : ∀ {task claim owned s t}, holding task claim owned s → valid s → valid t →
    evolves s t → (∀ token ∈ claim, same token s t) → holding task claim owned t

namespace Discipline

variable {M : Machine} (D : Discipline M)

/-- One step of somebody else, as a thread with this claim sees it. -/
structure Interferes (claim : Set D.Token) (s t : M.Shared) : Prop where
  before : D.valid s
  after : D.valid t
  evolves : D.evolves s t
  same : ∀ token ∈ claim, D.same token s t

/-- Any number of foreign steps. -/
def Rely (claim : Set D.Token) : M.Shared → M.Shared → Prop := ReflTransGen (D.Interferes claim)

/-- An operation of a thread that owns `claim` and keeps `kept` respects everyone else. -/
structure Permits (task : M.Task) (claim : Set D.Token) (s : M.Shared)
    (past : List (Performed M.sig)) {op : M.sig.Op}
    (effect : Effect M.sig M.Owned M.Shared M.Task op) (kept : Set D.Token) : Prop where
  named : ∀ token, D.names op token → token ∈ claim
  valid : D.valid effect.shared
  evolves : D.evolves s effect.shared
  frame : ∀ token, D.lives token s → token ∉ claim → D.same token s effect.shared
  kept_lives : ∀ token ∈ kept, D.lives token effect.shared
  kept_from : ∀ token ∈ kept, token ∈ claim ∨ ¬ D.lives token s
  holding : D.holding task kept effect.owned effect.shared
  legal : D.legal task past ⟨op, effect.answer⟩ s effect.shared
  spawned : ∀ started, effect.spawned = some started → ∃ given : Set D.Token,
    D.enters started.1 given started.2 effect.shared ∧
    D.holding started.1 given started.2 effect.shared ∧
    (∀ token ∈ given, D.lives token effect.shared) ∧
    (∀ token ∈ given, token ∈ claim ∨ ¬ D.lives token s) ∧ ∀ token ∈ given, token ∉ kept

/-- What holds of a thread's claim, belongings, the shared state and its own past. -/
abbrev Assertion := Set D.Token → M.Owned → M.Shared → List (Performed M.sig) → Prop

/-- Foreign steps do not invalidate the assertion. -/
def Stable (P : D.Assertion) : Prop :=
  ∀ claim owned s t past, P claim owned s past → D.Interferes claim s t → P claim owned t past

/-- Every operation of the program, at any state the others may reach, is permitted, and its
result satisfies `post` for as long as only the others move. -/
def Safe {ε α : Type} (task : M.Task) (post : Except ε α → D.Assertion) :
    Program M.sig ε α → D.Assertion
  | .done result, claim, owned, s, past => ∀ t, D.Rely claim s t → post result claim owned t past
  | .call op next, claim, owned, s, past =>
      ∀ t, D.Rely claim s t → D.valid t → (∀ token ∈ claim, D.lives token t) →
        D.holding task claim owned t → ∀ choice effect, M.exec choice op owned t = some effect →
        ∃ kept, D.Permits task claim t past effect kept ∧
          Safe task post (next effect.answer) kept effect.owned effect.shared
            (past ++ [⟨op, effect.answer⟩])

variable {D} {ε ε' α β : Type} {task : M.Task} {claim : Set D.Token} {owned : M.Owned}
  {s t : M.Shared} {past : List (Performed M.sig)}

theorem Stable.rely {P : D.Assertion} (stable : D.Stable P) (holds : P claim owned s past)
    (rely : D.Rely claim s t) : P claim owned t past := by
  induction rely with
  | refl => exact holds
  | tail _ interferes ih => exact stable _ _ _ _ _ ih interferes

namespace Safe

variable {post mid : Except ε α → D.Assertion}

/-- A thread that is safe now is safe after the others have moved. -/
theorem rely {program : Program M.sig ε α} (safe : D.Safe task post program claim owned s past)
    (moved : D.Rely claim s t) : D.Safe task post program claim owned t past := by
  cases program with
  | done result => exact fun u later => safe u (moved.trans later)
  | call op next => exact fun u later => safe u (moved.trans later)

/-- The rule for a program that is done: `P` holds now, and it is enough whatever the others do. -/
theorem done {P : D.Assertion} {result : Except ε α} (stable : D.Stable P) (holds : P claim owned s past)
    (enough : ∀ t, P claim owned t past → post result claim owned t past) :
    D.Safe task post (.done result) claim owned s past :=
  fun t moved => enough t (stable.rely holds moved)

/-- The rule for one operation: `P` holds now, foreign steps keep it, and from any state with `P`
the operation is permitted and leads to a safe continuation. -/
theorem call {P : D.Assertion} {op : M.sig.Op} {next : M.sig.Answer op → Program M.sig ε α}
    (stable : D.Stable P) (holds : P claim owned s past)
    (rule : ∀ t, P claim owned t past → D.valid t → (∀ token ∈ claim, D.lives token t) →
      D.holding task claim owned t → ∀ choice effect, M.exec choice op owned t = some effect →
      ∃ kept, D.Permits task claim t past effect kept ∧
        D.Safe task post (next effect.answer) kept effect.owned effect.shared
          (past ++ [⟨op, effect.answer⟩])) :
    D.Safe task post (.call op next) claim owned s past :=
  fun t moved => rule t (stable.rely holds moved)

theorem mono {program : Program M.sig ε α}
    (safe : D.Safe task mid program claim owned s past)
    (weaker : ∀ result claim owned s past, mid result claim owned s past →
      post result claim owned s past) : D.Safe task post program claim owned s past := by
  induction program generalizing claim owned s past with
  | done result => exact fun t moved => weaker _ _ _ _ _ (safe t moved)
  | call op next ih =>
    intro t moved valid lives holding choice effect ran
    obtain ⟨kept, permits, rest⟩ := safe t moved valid lives holding choice effect ran
    exact ⟨kept, permits, ih _ rest⟩

/-- Continuing with the result of a safe program, whatever that result is. -/
theorem handle {program : Program M.sig ε α} {rest : Except ε α → Program M.sig ε' β}
    {post : Except ε' β → D.Assertion} (first : D.Safe task mid program claim owned s past)
    (second : ∀ result claim owned s past, mid result claim owned s past →
      D.Safe task post (rest result) claim owned s past) :
    D.Safe task post (program.handle rest) claim owned s past := by
  induction program generalizing claim owned s past with
  | done result => exact second _ _ _ _ _ (first s .refl)
  | call op next ih =>
    intro t moved valid lives holding choice effect ran
    obtain ⟨kept, permits, tail⟩ := first t moved valid lives holding choice effect ran
    exact ⟨kept, permits, ih _ tail⟩

/-- Sequencing: the rest runs after a value, and an error must already satisfy the postcondition. -/
theorem bind {program : Program M.sig ε α} {rest : α → Program M.sig ε β}
    {post : Except ε β → D.Assertion} (first : D.Safe task mid program claim owned s past)
    (value : ∀ value claim owned s past, mid (.ok value) claim owned s past →
      D.Safe task post (rest value) claim owned s past)
    (error : ∀ fault, ∀ claim owned s past, mid (.error fault) claim owned s past →
      D.Safe task post (.done (.error fault)) claim owned s past) :
    D.Safe task post (program >>= rest) claim owned s past := by
  apply handle first
  rintro (fault | result) claim owned s past holds
  · exact error fault claim owned s past holds
  · exact value result claim owned s past holds

/-- A program that is cleaned up after when it fails. -/
theorem onError (mid : Except ε α → D.Assertion) {post : Except ε α → D.Assertion} {program : Program M.sig ε α}
    {cleanup : Program M.sig ε Unit} (first : D.Safe task mid program claim owned s past)
    (value : ∀ value claim owned s past, mid (.ok value) claim owned s past →
      D.Safe task post (.done (.ok value)) claim owned s past)
    (error : ∀ fault claim owned s past, mid (.error fault) claim owned s past →
      D.Safe task post (cleanup.handle fun _ => .done (.error fault)) claim owned s past) :
    D.Safe task post (program.onError cleanup) claim owned s past := by
  apply handle first
  rintro (fault | result) claim owned s past holds
  · exact error fault claim owned s past holds
  · exact value result claim owned s past holds

end Safe

/-! ## From safe threads to safe pools -/

variable (D)

/-- Every task is safe from the states in which it may start. -/
structure Verified : Prop where
  arrives : ∀ task s, M.arrives task = true → D.valid s →
    D.enters task ∅ M.fresh s ∧ D.holding task ∅ M.fresh s
  safe : ∀ task claim owned s, D.enters task claim owned s → D.valid s →
    (∀ token ∈ claim, D.lives token s) → D.holding task claim owned s →
    D.Safe task (D.returns task) (M.body task) claim owned s []

/-- The claims of the threads are alive and disjoint, and every thread is safe with its own. -/
structure Holds (events : List (Event M)) (pool : Pool M) (claims : ℕ → Set D.Token) : Prop where
  valid : D.valid pool.shared
  lives : ∀ i < pool.threads.length, ∀ token ∈ claims i, D.lives token pool.shared
  disjoint : ∀ i < pool.threads.length, ∀ j < pool.threads.length, i ≠ j →
    ∀ token ∈ claims i, token ∉ claims j
  holding : ∀ i thread, pool.threads[i]? = some thread →
    D.holding thread.task (claims i) thread.owned pool.shared
  safe : ∀ i thread, pool.threads[i]? = some thread →
    D.Safe thread.task (D.returns thread.task) thread.program (claims i) thread.owned pool.shared
      (doneBy i events)
  quiet : ∀ i, pool.threads.length ≤ i → doneBy i events = []

/-- What the discipline says about one step of the pool. -/
def Lawful (events : List (Event M)) (pool : Pool M) : Event M → Pool M → Prop
  | .arrived _, next => next.shared = pool.shared
  | .performed i _ what, next => D.evolves pool.shared next.shared ∧
      ∃ thread, pool.threads[i]? = some thread ∧
        D.legal thread.task (doneBy i events) what pool.shared next.shared

/-- No thread of the pool owns this part of the state. -/
def Unclaimed (pool : Pool M) (claims : ℕ → Set D.Token) (token : D.Token) : Prop :=
  ∀ i < pool.threads.length, token ∉ claims i

variable {D} {events : List (Event M)} {pool next : Pool M} {claims : ℕ → Set D.Token}
  {event : Event M}

private theorem Holds.arrive (verified : D.Verified) (holds : D.Holds events pool claims)
    {task : M.Task} (accepted : M.arrives task = true) :
    D.Holds (events ++ [.arrived task])
      { pool with threads := pool.threads ++ [Thread.start task M.fresh] }
      (Function.update claims pool.threads.length ∅) := by
  obtain ⟨enters, starts⟩ := verified.arrives task pool.shared accepted holds.valid
  have old {i : ℕ} (bound : i < pool.threads.length) :
      Function.update claims pool.threads.length ∅ i = claims i := Function.update_of_ne (by omega) ..
  have size : (pool.threads ++ [Thread.start task M.fresh]).length = pool.threads.length + 1 := by simp
  have place {i : ℕ} {thread : Thread M}
      (present : (pool.threads ++ [Thread.start task M.fresh])[i]? = some thread) :
      (i < pool.threads.length ∧ pool.threads[i]? = some thread) ∨
        (i = pool.threads.length ∧ thread = Thread.start task M.fresh) := by
    rw [List.getElem?_append] at present
    split at present
    · next bound => exact .inl ⟨bound, present⟩
    · rw [List.getElem?_singleton] at present
      split at present
      · exact .inr ⟨by omega, (Option.some.inj present).symm⟩
      · contradiction
  refine ⟨holds.valid, ?_, ?_, ?_, ?_, ?_⟩
  · intro i bound token owns
    rcases Nat.lt_or_ge i pool.threads.length with inside | outside
    · exact holds.lives i inside token (old inside ▸ owns)
    · obtain rfl : i = pool.threads.length := by simp only [size] at bound; omega
      simp at owns
  · intro i iBound j jBound different token owns
    simp only [size] at iBound jBound
    rcases Nat.lt_or_ge i pool.threads.length with iInside | iOutside
    · rcases Nat.lt_or_ge j pool.threads.length with jInside | jOutside
      · rw [old iInside] at owns
        rw [old jInside]
        exact holds.disjoint i iInside j jInside different token owns
      · obtain rfl : j = pool.threads.length := by omega
        simp
    · obtain rfl : i = pool.threads.length := by omega
      simp at owns
  · intro i thread present
    rcases place present with ⟨inside, present⟩ | ⟨rfl, rfl⟩
    · rw [old inside]
      exact holds.holding i thread present
    · rw [Function.update_self]; exact starts
  · intro i thread present
    rw [doneBy_append, doneBy_arrived, List.append_nil]
    rcases place present with ⟨inside, present⟩ | ⟨rfl, rfl⟩
    · rw [old inside]
      exact holds.safe i thread present
    · rw [holds.quiet _ le_rfl, Function.update_self]
      exact verified.safe task ∅ M.fresh pool.shared enters holds.valid (by simp) starts
  · intro i bound
    simp only [size] at bound
    rw [doneBy_append, doneBy_arrived, List.append_nil]
    exact holds.quiet i (by omega)

/-- The claims after a step: the mover keeps `kept`, and a started thread is given the rest. -/
private def passOn (claims : ℕ → Set D.Token) (i last : ℕ) (kept given : Set D.Token) :
    ℕ → Set D.Token :=
  fun j => if j = i then kept else if j = last then given else claims j

section PassOn

variable {i j last : ℕ} {kept given alive : Set D.Token}

private theorem passOn_mover : passOn claims i last kept given i = kept := if_pos rfl

private theorem passOn_last (bound : i < last) : passOn claims i last kept given last = given := by
  rw [passOn, if_neg (by omega), if_pos rfl]

private theorem passOn_other (inside : j < last) (other : j ≠ i) : passOn claims i last kept given j = claims j := by
  rw [passOn, if_neg other, if_neg (by omega)]

/-- Claims stay disjoint when the mover and the started thread share what the mover had and what is new. -/
private theorem disjoint_passOn (bound : i < last) (alives : ∀ j < last, ∀ token ∈ claims j, token ∈ alive)
    (disjoint : ∀ j < last, ∀ k < last, j ≠ k → ∀ token ∈ claims j, token ∉ claims k)
    (keptFrom : ∀ token ∈ kept, token ∈ claims i ∨ token ∉ alive)
    (givenFrom : ∀ token ∈ given, token ∈ claims i ∨ token ∉ alive) (apart : ∀ token ∈ given, token ∉ kept) :
    ∀ j < last + 1, ∀ k < last + 1, j ≠ k →
      ∀ token ∈ passOn claims i last kept given j, token ∉ passOn claims i last kept given k := by
  have unowned {j : ℕ} (inside : j < last) (other : j ≠ i) {token : D.Token} (owns : token ∈ claims j) :
      ¬ (token ∈ claims i ∨ token ∉ alive) := by
    rintro (mine | dead)
    · exact disjoint j inside i bound other token owns mine
    · exact dead (alives j inside token owns)
  have position {j : ℕ} (inside : j < last + 1) : j = i ∨ (j ≠ i ∧ j < last) ∨ j = last := by omega
  intro j jInside k kInside different token owns
  rcases position jInside with rfl | ⟨jOther, jOld⟩ | rfl <;>
    rcases position kInside with rfl | ⟨kOther, kOld⟩ | rfl
  · exact absurd rfl different
  · rw [passOn_mover] at owns
    rw [passOn_other kOld kOther]
    exact fun theirs => unowned kOld kOther theirs (keptFrom token owns)
  · rw [passOn_mover] at owns
    rw [passOn_last bound]
    exact fun theirs => apart token theirs owns
  · rw [passOn_other jOld jOther] at owns
    rw [passOn_mover]
    exact fun mine => unowned jOld jOther owns (keptFrom token mine)
  · rw [passOn_other jOld jOther] at owns
    rw [passOn_other kOld kOther]
    exact disjoint j jOld k kOld different token owns
  · rw [passOn_other jOld jOther] at owns
    rw [passOn_last bound]
    exact fun theirs => unowned jOld jOther owns (givenFrom token theirs)
  · rw [passOn_last bound] at owns
    rw [passOn_mover]
    exact apart token owns
  · rw [passOn_last bound] at owns
    rw [passOn_other kOld kOther]
    exact fun theirs => unowned kOld kOther theirs (givenFrom token owns)
  · exact absurd rfl different

end PassOn

/-- What the started thread is given. Where none is started it is nothing, so one argument covers both cases. -/
private theorem Permits.given {op : M.sig.Op} {effect : Effect M.sig M.Owned M.Shared M.Task op}
    {claim kept : Set D.Token} (permits : D.Permits task claim s past effect kept) : ∃ given : Set D.Token,
      (∀ started, effect.spawned = some started →
        D.enters started.1 given started.2 effect.shared ∧ D.holding started.1 given started.2 effect.shared) ∧
      (∀ token ∈ given, D.lives token effect.shared) ∧
      (∀ token ∈ given, token ∈ claim ∨ ¬ D.lives token s) ∧ ∀ token ∈ given, token ∉ kept := by
  cases spawned : effect.spawned with
  | none => exact ⟨∅, by simp, by simp, by simp, by simp⟩
  | some started =>
    obtain ⟨given, enters, starts, lives, source, apart⟩ := permits.spawned started spawned
    exact ⟨given, by rintro _ ⟨⟩; exact ⟨enters, starts⟩, lives, source, apart⟩

section Moves

variable {i : ℕ} {owned : M.Owned} {op : M.sig.Op} {rest : M.sig.Answer op → Program M.sig M.Fault M.Value}
  {choice : M.Choice} {effect : Effect M.sig M.Owned M.Shared M.Task op}

/-- The next operation of a thread is permitted, and the thread is safe after it. -/
private theorem Holds.continues (holds : D.Holds events pool claims)
    (present : pool.threads[i]? = some ⟨task, owned, .call op rest⟩)
    (ran : M.exec choice op owned pool.shared = some effect) :
    ∃ kept, D.Permits task (claims i) pool.shared (doneBy i events) effect kept ∧
      D.Safe task (D.returns task) (rest effect.answer) kept effect.owned effect.shared
        (doneBy i events ++ [⟨op, effect.answer⟩]) :=
  holds.safe i _ present pool.shared .refl holds.valid (holds.lives i (List.getElem?_eq_some_iff.mp present).1)
    (holds.holding i _ present) choice effect ran

theorem Holds.permits (holds : D.Holds events pool claims)
    (present : pool.threads[i]? = some ⟨task, owned, .call op rest⟩)
    (ran : M.exec choice op owned pool.shared = some effect) :
    ∃ kept, D.Permits task (claims i) pool.shared (doneBy i events) effect kept := by
  obtain ⟨kept, permits, _⟩ := holds.continues present ran
  exact ⟨kept, permits⟩

/-- A step of one thread, as any other thread sees it. -/
theorem Holds.interferes (holds : D.Holds events pool claims) {j : ℕ} (bound : j < pool.threads.length)
    (other : j ≠ i) (present : pool.threads[i]? = some ⟨task, owned, .call op rest⟩)
    (ran : M.exec choice op owned pool.shared = some effect) : D.Interferes (claims j) pool.shared effect.shared := by
  obtain ⟨kept, permits⟩ := holds.permits present ran
  refine ⟨holds.valid, permits.valid, permits.evolves, fun token owns => ?_⟩
  exact permits.frame token (holds.lives j bound token owns)
    (holds.disjoint j bound i (List.getElem?_eq_some_iff.mp present).1 other token owns)

private theorem Holds.act (verified : D.Verified) (holds : D.Holds events pool claims)
    (present : pool.threads[i]? = some ⟨task, owned, .call op rest⟩)
    (ran : M.exec choice op owned pool.shared = some effect) :
    (∃ claims', D.Holds (events ++ [.performed i choice ⟨op, effect.answer⟩])
      (pool.advance i task rest effect) claims' ∧ ∀ token, D.lives token pool.shared → D.Unclaimed pool claims token →
        D.Unclaimed (pool.advance i task rest effect) claims' token ∧ D.same token pool.shared effect.shared) ∧
    D.evolves pool.shared effect.shared ∧
      D.legal task (doneBy i events) ⟨op, effect.answer⟩ pool.shared effect.shared := by
  have bound := (List.getElem?_eq_some_iff.mp present).1
  obtain ⟨kept, permits, continues⟩ := holds.continues present ran
  obtain ⟨given, enters, givenLives, givenFrom, apart⟩ := permits.given
  refine ⟨?_, permits.evolves, permits.legal⟩
  have foreign {j : ℕ} (inside : j < pool.threads.length) (other : j ≠ i) :
      D.Interferes (claims j) pool.shared effect.shared := holds.interferes inside other present ran
  have size : (pool.advance i task rest effect).threads.length ≤ pool.threads.length + 1 := by
    simp only [Pool.advance, List.length_append, List.length_set]
    cases effect.spawned <;> simp
  refine ⟨passOn claims i pool.threads.length kept given, ⟨permits.valid, ?_, ?_, ?_, ?_, ?_⟩, ?_⟩
  · intro j inside token owns
    obtain rfl | ⟨other, inside⟩ | rfl : j = i ∨ (j ≠ i ∧ j < pool.threads.length) ∨
      j = pool.threads.length := by omega
    · rw [passOn_mover] at owns
      exact permits.kept_lives token owns
    · rw [passOn_other inside other] at owns
      exact D.lives_same (holds.lives j inside token owns) ((foreign inside other).same token owns)
    · rw [passOn_last bound] at owns
      exact givenLives token owns
  · intro j jInside k kInside
    exact @disjoint_passOn M D claims i pool.threads.length kept given
      {token | D.lives token pool.shared} bound holds.lives
      holds.disjoint permits.kept_from givenFrom apart j (by omega) k (by omega)
  · intro j thread found
    rcases Pool.advance_cases bound found with ⟨rfl, rfl⟩ | ⟨other, found⟩ | ⟨rfl, started, spawned, rfl⟩
    · rw [passOn_mover]
      exact permits.holding
    · have inside := (List.getElem?_eq_some_iff.mp found).1
      rw [passOn_other inside other]
      have foreign := foreign inside other
      exact D.holding_stable (holds.holding j thread found) foreign.before foreign.after
        foreign.evolves foreign.same
    · rw [passOn_last bound]
      exact (enters started spawned).2
  · intro j thread found
    rw [doneBy_append, doneBy_performed]
    rcases Pool.advance_cases bound found with ⟨rfl, rfl⟩ | ⟨other, found⟩ | ⟨rfl, started, spawned, rfl⟩
    · rw [passOn_mover, if_pos rfl]
      exact continues
    · have inside := (List.getElem?_eq_some_iff.mp found).1
      rw [passOn_other inside other, if_neg (Ne.symm other), List.append_nil]
      exact (holds.safe j thread found).rely (.single (foreign inside other))
    · rw [passOn_last bound, if_neg (by omega), List.append_nil, holds.quiet _ le_rfl]
      obtain ⟨entry, starts⟩ := enters started spawned
      exact verified.safe _ _ _ _ entry permits.valid givenLives starts
  · intro j outside
    have large := pool.advance_length i task rest effect
    rw [doneBy_append, doneBy_performed, if_neg (by omega), List.append_nil]
    exact holds.quiet j (by omega)
  · intro token lives unclaimed
    refine ⟨fun j inside owns => ?_, permits.frame token lives (unclaimed i bound)⟩
    obtain rfl | ⟨other, inside⟩ | rfl : j = i ∨ (j ≠ i ∧ j < pool.threads.length) ∨
      j = pool.threads.length := by omega
    · rw [passOn_mover] at owns
      exact (permits.kept_from token owns).elim (unclaimed j bound) fun dead => dead lives
    · rw [passOn_other inside other] at owns
      exact unclaimed j inside owns
    · rw [passOn_last bound] at owns
      exact (givenFrom token owns).elim (unclaimed i bound) fun dead => dead lives

end Moves

/-- One step of a pool of safe threads leads to a pool of safe threads. -/
theorem Holds.step (verified : D.Verified) (holds : D.Holds events pool claims)
    (step : Step pool event next) :
    (∃ claims', D.Holds (events ++ [event]) next claims') ∧ D.Lawful events pool event next := by
  cases step with
  | arrive accepted => exact ⟨⟨_, holds.arrive verified accepted⟩, rfl⟩
  | act present ran =>
    obtain ⟨⟨claims', after, _⟩, evolves, legal⟩ := holds.act verified present ran
    exact ⟨⟨claims', after⟩, evolves, _, present, legal⟩

/-- What nobody owns, nobody changes or takes. -/
theorem Holds.step_unclaimed (verified : D.Verified) (holds : D.Holds events pool claims)
    (step : Step pool event next) : ∃ claims', D.Holds (events ++ [event]) next claims' ∧
      ∀ token, D.lives token pool.shared → D.Unclaimed pool claims token →
        D.Unclaimed next claims' token ∧ D.lives token next.shared ∧
          ReflTransGen (D.same token) pool.shared next.shared := by
  cases step with
  | arrive accepted =>
    refine ⟨_, holds.arrive verified accepted, fun token lives unclaimed => ⟨fun j inside => ?_, lives, .refl⟩⟩
    rcases Nat.lt_or_ge j pool.threads.length with old | new
    · rw [Function.update_of_ne (by omega)]
      exact unclaimed j old
    · obtain rfl : j = pool.threads.length := by
        simp only [List.length_append, List.length_singleton] at inside
        omega
      simp
  | act present ran =>
    obtain ⟨⟨claims', after, foreign⟩, _⟩ := holds.act verified present ran
    refine ⟨claims', after, fun token lives unclaimed => ?_⟩
    obtain ⟨still, same⟩ := foreign token lives unclaimed
    exact ⟨still, D.lives_same lives same, .single same⟩

/-- In a verified system every path from an empty pool goes through pools of safe threads. -/
theorem holds_of_path (verified : D.Verified) {first last : Pool M} (path : Path first events last)
    (empty : first.threads = []) (valid : D.valid first.shared) :
    ∃ claims, D.Holds events last claims := by
  induction path with
  | nil => exact ⟨fun _ => ∅, valid, by simp [empty], by simp [empty], by simp [empty], by simp [empty], by simp⟩
  | snoc path step ih =>
    obtain ⟨claims, holds⟩ := ih
    exact (holds.step verified step).1

/-- What nobody owns stays as it is, whatever the threads do. -/
theorem Holds.path_unclaimed (verified : D.Verified) {first last : Pool M} {before : List (Event M)} {token : D.Token}
    (holds : D.Holds before first claims) (path : Path first events last) (lives : D.lives token first.shared)
    (unclaimed : D.Unclaimed first claims token) : ∃ claims', D.Holds (before ++ events) last claims' ∧
      D.Unclaimed last claims' token ∧ D.lives token last.shared ∧
        ReflTransGen (D.same token) first.shared last.shared := by
  induction path with
  | nil => exact ⟨claims, by simpa using holds, unclaimed, lives, .refl⟩
  | snoc path step ih =>
    obtain ⟨middle, holds, unclaimed, lives, same⟩ := ih
    obtain ⟨claims', after, foreign⟩ := holds.step_unclaimed verified step
    obtain ⟨unclaimed, lives, more⟩ := foreign token lives unclaimed
    rw [← List.append_assoc]
    exact ⟨claims', after, unclaimed, lives, same.trans more⟩

/-- A finished thread of a verified pool has established what its task returns with. -/
theorem Holds.returned (holds : D.Holds events pool claims) {i : ℕ} {task : M.Task}
    {result : Except M.Fault M.Value} (returned : pool.Returned i task result) :
    ∃ owned, pool.threads[i]? = some ⟨task, owned, .done result⟩ ∧
      D.returns task result (claims i) owned pool.shared (doneBy i events) := by
  obtain ⟨owned, present⟩ := returned
  exact ⟨owned, present, holds.safe i _ present pool.shared .refl⟩

end Discipline

end Interleaving
