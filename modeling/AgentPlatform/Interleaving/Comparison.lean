import AgentPlatform.Interleaving.Surroundings

/-! # Two histories of one thread

A thread is executed twice, with different threads around it and with different choices of the
environment. `Couples` says that both executions issue the same operations and what their results
and the shared states have in common in the end; its rules follow those of `Ensures`. The choices
and answers of the two executions are compared operation by operation. A program that cannot tell
similar answers apart is coupled with itself, and what its thread did is an execution of its own.
-/

set_option autoImplicit false

namespace Interleaving

open Relation

variable {M : Machine} {ε ε' α β : Type}

/-! ## Programs that cannot tell answers apart -/

namespace Program

variable {sig : Signature}

/-- Each operation of the program is allowed, and the program goes on in the same way after similar answers. -/
def Agrees (allowed : sig.Op → Prop) (similar : (op : sig.Op) → sig.Answer op → sig.Answer op → Prop) :
    Program sig ε α → Prop
  | .done _ => True
  | .call op next => allowed op ∧ ∀ answer answer', similar op answer answer' →
      next answer = next answer' ∧ (next answer).Agrees allowed similar

section Agrees

variable {allowed : sig.Op → Prop} {similar : (op : sig.Op) → sig.Answer op → sig.Answer op → Prop}

theorem Agrees.handle {program : Program sig ε α} {rest : Except ε α → Program sig ε' β}
    (first : program.Agrees allowed similar) (second : ∀ result, (rest result).Agrees allowed similar) :
    (program.handle rest).Agrees allowed similar := by
  induction program with
  | done result => exact second result
  | call op next ih =>
    refine ⟨first.1, fun answer answer' alike => ?_⟩
    obtain ⟨same, later⟩ := first.2 answer answer' alike
    exact ⟨congrArg (Program.handle · rest) same, ih answer later⟩

theorem Agrees.bind {program : Program sig ε α} {rest : α → Program sig ε β} (first : program.Agrees allowed similar)
    (second : ∀ value, (rest value).Agrees allowed similar) : (program >>= rest).Agrees allowed similar := by
  apply handle first
  rintro (fault | value)
  · trivial
  · exact second value

/-- Nothing can be told apart from itself. -/
theorem Uses.agrees {kind : sig.Op → Prop} {program : Program sig ε α} (uses : program.Uses kind)
    (fine : ∀ op, kind op → allowed op) (same : ∀ op, kind op → ∀ answer answer', similar op answer answer' →
      answer = answer') : program.Agrees allowed similar := by
  induction program with
  | done result => trivial
  | call op next ih =>
    refine ⟨fine op uses.1, fun answer answer' alike => ?_⟩
    obtain rfl := same op uses.1 answer answer' alike
    exact ⟨rfl, ih answer (uses.2 answer)⟩

/-- After answers of the same kind a program has executed the same operations and returns the same. -/
theorem Agrees.unique {expected : (op : sig.Op) → sig.Answer op → Prop} {program : Program sig ε α}
    (agrees : program.Agrees allowed fun op answer answer' => expected op answer ∧ expected op answer')
    {past past' : List (Performed sig)} {result result' : Except ε α} (follows : program.Follows past (.done result))
    (follows' : program.Follows past' (.done result')) (met : ∀ what ∈ past, expected what.op what.answer)
    (met' : ∀ what ∈ past', expected what.op what.answer) :
    past.map Performed.op = past'.map Performed.op ∧ result = result' := by
  induction program generalizing past past' with
  | done value =>
    obtain ⟨rfl, same⟩ := follows.cases_done
    obtain ⟨rfl, same'⟩ := follows'.cases_done
    cases same
    cases same'
    exact ⟨rfl, rfl⟩
  | call op next ih =>
    rcases follows.cases_call with ⟨_, absurd⟩ | ⟨answer, later, rfl, rest⟩
    · cases absurd
    rcases follows'.cases_call with ⟨_, absurd⟩ | ⟨answer', later', rfl, rest'⟩
    · cases absurd
    obtain ⟨same, onward⟩ := agrees.2 answer answer' ⟨met _ List.mem_cons_self, met' _ List.mem_cons_self⟩
    rw [← same] at rest'
    obtain ⟨ops, results⟩ := ih answer onward rest rest' (fun what member => met what (List.mem_cons_of_mem _ member))
      fun what member => met' what (List.mem_cons_of_mem _ member)
    exact ⟨congrArg (op :: ·) ops, results⟩

end Agrees

end Program

/-! ## Coupled programs -/

/-- How the environment resolves an operation in the one history and in the other. -/
abbrev Coupling (M : Machine) := (op : M.sig.Op) → M.Choice × M.sig.Answer op → M.Choice × M.sig.Answer op → Prop

/-- In these surroundings both programs execute the same operations, as long as the choices and answers
are paired, and their results are as promised. -/
def Surroundings.Couples (E : Surroundings M) (paired : Coupling M)
    (post : Except ε α → Except ε α → M.Shared → M.Shared → Prop) :
    Program M.sig ε α → Program M.sig ε α → M.Shared → M.Shared → Prop
  | .done result, twin, s, s' => ∃ result', twin = .done result' ∧ post result result' s s'
  | .call op next, twin, s, s' => ∃ next', twin = .call op next' ∧
      ∀ t t', ReflTransGen (E.rely op) s t → ReflTransGen (E.rely op) s' t' → E.sound t → E.sound t' →
        ∀ c c' owned owned' effect effect', E.grants op c t → E.grants op c' t' →
          M.exec c op owned t = some effect → M.exec c' op owned' t' = some effect' →
          paired op (c, effect.answer) (c', effect'.answer) →
            E.Couples paired post (next effect.answer) (next' effect'.answer) effect.shared effect'.shared

/-- Both results are the same, and the states are related. -/
def Alike (R : M.Shared → M.Shared → Prop) (result result' : Except ε α) (s s' : M.Shared) :
    Prop := result = result' ∧ R s s'

namespace Surroundings.Couples

variable {E : Surroundings M} {paired : Coupling M} {post mid : Except ε α → Except ε α → M.Shared → M.Shared → Prop}
  {s s' : M.Shared} {R : M.Shared → M.Shared → Prop}

/-- The rule for one operation: others keep `R` on both sides, and from `R` both go on alike. -/
theorem call {op : M.sig.Op} {next next' : M.sig.Answer op → Program M.sig ε α} (now : R s s')
    (left : ∀ s t s', E.rely op s t → R s s' → R t s') (right : ∀ s s' t', E.rely op s' t' → R s s' → R s t')
    (rule : ∀ t t' c c' owned owned' effect effect', R t t' → E.sound t → E.sound t' → E.grants op c t →
      E.grants op c' t' → M.exec c op owned t = some effect → M.exec c' op owned' t' = some effect' →
      paired op (c, effect.answer) (c', effect'.answer) →
        E.Couples paired post (next effect.answer) (next' effect'.answer) effect.shared effect'.shared) :
    E.Couples paired post (.call op next) (.call op next') s s' := by
  refine ⟨next', rfl, fun t t' moved moved' => ?_⟩
  have one_side : R t s' := by
    induction moved with
    | refl => exact now
    | tail _ step ih => exact left _ _ _ step ih
  have still : R t t' := by
    induction moved' with
    | refl => exact one_side
    | tail _ step ih => exact right _ _ _ step ih
  exact fun sound sound' c c' owned owned' effect effect' granted granted' ran ran' pair =>
    rule t t' c c' owned owned' effect effect' still sound sound' granted granted' ran ran' pair

theorem mono {program twin : Program M.sig ε α} (couples : E.Couples paired mid program twin s s')
    (weaker : ∀ result result' s s', mid result result' s s' → post result result' s s') :
    E.Couples paired post program twin s s' := by
  induction program generalizing twin s s' with
  | done result =>
    obtain ⟨result', same, holds⟩ := couples
    exact ⟨result', same, weaker _ _ _ _ holds⟩
  | call op next ih =>
    obtain ⟨next', same, rest⟩ := couples
    refine ⟨next', same,
      fun t t' moved moved' sound sound' c c' owned owned' effect effect' granted granted' ran ran' pair => ?_⟩
    exact ih _ (rest t t' moved moved' sound sound' c c' owned owned' effect effect' granted granted' ran ran' pair)

theorem handle {program twin : Program M.sig ε α} {rest rest' : Except ε α → Program M.sig ε' β}
    {post : Except ε' β → Except ε' β → M.Shared → M.Shared → Prop} (first : E.Couples paired mid program twin s s')
    (second : ∀ result result' s s', mid result result' s s' →
      E.Couples paired post (rest result) (rest' result') s s') :
    E.Couples paired post (program.handle rest) (twin.handle rest') s s' := by
  induction program generalizing twin s s' with
  | done result =>
    obtain ⟨result', rfl, holds⟩ := first
    exact second _ _ _ _ holds
  | call op next ih =>
    obtain ⟨next', rfl, later⟩ := first
    refine ⟨_, rfl,
      fun t t' moved moved' sound sound' c c' owned owned' effect effect' granted granted' ran ran' pair => ?_⟩
    exact ih _ (later t t' moved moved' sound sound' c c' owned owned' effect effect' granted granted' ran ran' pair)

/-- Sequencing of one program that returns the same on both sides. -/
theorem bind {program : Program M.sig ε α} {rest : α → Program M.sig ε β}
    {post : Except ε β → Except ε β → M.Shared → M.Shared → Prop}
    (first : E.Couples paired (Alike R) program program s s')
    (value : ∀ value s s', R s s' → E.Couples paired post (rest value) (rest value) s s')
    (error : ∀ fault s s', R s s' → post (.error fault) (.error fault) s s') :
    E.Couples paired post (program >>= rest) (program >>= rest) s s' := by
  apply handle first
  rintro (fault | result) _ s s' ⟨rfl, holds⟩
  · exact ⟨_, rfl, error fault s s' holds⟩
  · exact value result s s' holds

/-- A program that gets similar answers on both sides returns the same. -/
theorem of_agrees {allowed : M.sig.Op → Prop} {similar : (op : M.sig.Op) → M.sig.Answer op → M.sig.Answer op → Prop}
    {program : Program M.sig ε α} (agrees : program.Agrees allowed similar) (now : R s s')
    (left : ∀ op s t s', allowed op → E.rely op s t → R s s' → R t s')
    (right : ∀ op s s' t', allowed op → E.rely op s' t' → R s s' → R s t')
    (rule : ∀ op t t' c c' owned owned' effect effect', allowed op → R t t' → E.sound t → E.sound t' →
      E.grants op c t →
      E.grants op c' t' → M.exec c op owned t = some effect → M.exec c' op owned' t' = some effect' →
      paired op (c, effect.answer) (c', effect'.answer) →
        similar op effect.answer effect'.answer ∧ R effect.shared effect'.shared) :
    E.Couples paired (Alike R) program program s s' := by
  induction program generalizing s s' with
  | done result => exact ⟨result, rfl, rfl, now⟩
  | call op next ih =>
    obtain ⟨permitted, later⟩ := agrees
    apply call now (fun s t s' => left op s t s' permitted) (fun s s' t' => right op s s' t' permitted)
    intro t t' c c' owned owned' effect effect' still sound sound' granted granted' ran ran' pair
    obtain ⟨alike, related⟩ :=
      rule op t t' c c' owned owned' effect effect' permitted still sound sound' granted granted' ran ran' pair
    obtain ⟨same, onward⟩ := later _ _ alike
    rw [← same]
    exact ih _ onward related

end Surroundings.Couples

/-! ## Paths -/

/-- The operations of thread `i` with the choices of the environment, in order. -/
def stepsBy (i : ℕ) (events : List (Event M)) : List (M.Choice × Performed M.sig) :=
  events.filterMap fun
    | .arrived _ => none
    | .performed thread choice what => if thread = i then some (choice, what) else none

theorem stepsBy_append (i : ℕ) (before after : List (Event M)) :
    stepsBy i (before ++ after) = stepsBy i before ++ stepsBy i after := List.filterMap_append

theorem stepsBy_cons_self (i : ℕ) (choice : M.Choice) (what : Performed M.sig) (after : List (Event M)) :
    stepsBy i (Event.performed i choice what :: after) = (choice, what) :: stepsBy i after := by
  simp [stepsBy]

theorem stepsBy_quiet {i : ℕ} {events : List (Event M)} (quiet : ∀ event ∈ events, ¬ event.IsBy i) :
    stepsBy i events = [] := by
  apply List.filterMap_eq_nil_iff.mpr
  intro event member
  cases event with
  | arrived task => rfl
  | performed thread choice what =>
    apply if_neg
    rintro rfl
    exact quiet _ member ⟨choice, what, rfl⟩

theorem mem_stepsBy {i : ℕ} {events : List (Event M)} {choice : M.Choice} {what : Performed M.sig} :
    (choice, what) ∈ stepsBy i events ↔ .performed i choice what ∈ events := by
  simp only [stepsBy, List.mem_filterMap]
  constructor
  · rintro ⟨event, member, same⟩
    cases event with
    | arrived task => cases same
    | performed thread other done =>
      simp only [Option.ite_none_right_eq_some, Option.some.injEq, Prod.mk.injEq] at same
      obtain ⟨rfl, rfl, rfl⟩ := same
      exact member
  · exact fun member => ⟨_, member, if_pos rfl⟩

/-- Operation by operation, the choices and answers of the two histories are paired. -/
def Paired (paired : Coupling M) (steps steps' : List (M.Choice × Performed M.sig)) : Prop :=
  ∀ (k : ℕ) (op : M.sig.Op) c answer c' answer', steps[k]? = some (c, ⟨op, answer⟩) →
    steps'[k]? = some (c', ⟨op, answer'⟩) → paired op (c, answer) (c', answer')

theorem Paired.tail {paired : Coupling M} {step step' : M.Choice × Performed M.sig}
    {steps steps' : List (M.Choice × Performed M.sig)} (pairs : Paired paired (step :: steps) (step' :: steps')) :
    Paired paired steps steps' :=
  fun k op c answer c' answer' left right => pairs (k + 1) op c answer c' answer' left right

section Paths

variable {E : Surroundings M} {paired : Coupling M} {first last : Pool M}
  {events before after : List (Event M)} {i : ℕ}

theorem not_isBy_of_doneBy (quiet : doneBy i events = []) {event : Event M}
    (member : event ∈ events) : ¬ event.IsBy i := by
  rintro ⟨choice, what, rfl⟩
  have done : what ∈ doneBy i events := mem_doneBy.mpr ⟨choice, member⟩
  rw [quiet] at done
  cases done

/-- A thread stays where it is while only others move. -/
theorem Path.bystander {thread : Thread M} (path : Path first events last) (quiet : ∀ event ∈ events, ¬ event.IsBy i)
    (present : first.threads[i]? = some thread) : last.threads[i]? = some thread := by
  induction path with
  | nil => exact present
  | snoc path step ih =>
    exact step.bystander (quiet _ (by simp)) (ih (fun event member => quiet event (List.mem_append_left _ member)))

/-- A thread that gets the answers that are expected goes on to get them. -/
theorem Path.agrees {allowed : M.sig.Op → Prop} {expected : (op : M.sig.Op) → M.sig.Answer op → Prop} {task : M.Task}
    {owned : M.Owned} {program : Program M.sig M.Fault M.Value} (path : Path first events last)
    (present : first.threads[i]? = some ⟨task, owned, program⟩)
    (agrees : program.Agrees allowed fun op answer answer' => expected op answer ∧ expected op answer')
    (meets : ∀ before choice what after middle next, events = before ++ .performed i choice what :: after →
      Path first before middle →
      Step middle (.performed i choice what) next → allowed what.op → expected what.op what.answer) :
    (∀ what ∈ doneBy i events, allowed what.op ∧ expected what.op what.answer) ∧
    ∃ owned rest, last.threads[i]? = some ⟨task, owned, rest⟩ ∧
      rest.Agrees allowed fun op answer answer' => expected op answer ∧ expected op answer' := by
  induction path with
  | nil => exact ⟨by simp, owned, program, present, agrees⟩
  | @snoc middle last events event path step ih =>
    obtain ⟨met, owned, rest, waiting, agrees⟩ := ih fun before choice what after middle next cut =>
      meets before choice what (after ++ [event]) middle next (by simp [cut])
    by_cases mine : event.IsBy i
    · obtain ⟨choice, what, rfl⟩ := mine
      have expects := meets events choice what [] middle last rfl path step
      cases step with
      | @act _ _ _ op next _ effect mover ran =>
        cases waiting.symm.trans mover
        refine ⟨fun other member => ?_, effect.owned, next effect.answer, Pool.advance_self waiting,
          (agrees.2 _ _ ⟨expects agrees.1, expects agrees.1⟩).2⟩
        rw [doneBy_append, doneBy_performed, if_pos rfl] at member
        rcases List.mem_append.mp member with old | new
        · exact met other old
        · obtain rfl := List.mem_singleton.mp new
          exact ⟨agrees.1, expects agrees.1⟩
    · rw [doneBy_append, doneBy_other mine, List.append_nil]
      exact ⟨met, owned, rest, step.bystander mine waiting, agrees⟩

/-- What others do while a thread waits is what it may count on. -/
theorem Surroundings.Around.rely_of_quiet {task : M.Task} {owned : M.Owned} {op : M.sig.Op}
    {rest : M.sig.Answer op → Program M.sig M.Fault M.Value} (around : E.Around i first events)
    (path : Path first events last) (quiet : ∀ event ∈ events, ¬ event.IsBy i)
    (present : first.threads[i]? = some ⟨task, owned, .call op rest⟩) :
    ReflTransGen (E.rely op) first.shared last.shared := by
  induction path with
  | nil => exact .refl
  | @snoc middle last events event path step ih =>
    have earlier : ∀ event ∈ events, ¬ event.IsBy i := fun event member => quiet event (List.mem_append_left _ member)
    exact .tail (ih around.left earlier)
      ((around.final path step).2.2 _ _ _ _ (path.bystander earlier present) (quiet event (by simp)))

/-- A thread that has returned has executed the operation for which it was waiting. -/
theorem Path.first_step {task : M.Task} {owned : M.Owned} {op : M.sig.Op}
    {rest : M.sig.Answer op → Program M.sig M.Fault M.Value} {task' : M.Task} {result : Except M.Fault M.Value}
    (path : Path first events last) (present : first.threads[i]? = some ⟨task, owned, .call op rest⟩)
    (returned : last.Returned i task' result) :
    ∃ before c after middle effect, events = before ++ .performed i c ⟨op, effect.answer⟩ :: after ∧
      (∀ event ∈ before, ¬ event.IsBy i) ∧ Path first before middle ∧
      middle.threads[i]? = some ⟨task, owned, .call op rest⟩ ∧ M.exec c op owned middle.shared = some effect ∧
      Path (middle.advance i task rest effect) after last := by
  cases done : doneBy i events with
  | nil =>
    obtain ⟨owned', finished⟩ := returned
    have still := path.bystander (fun event member => not_isBy_of_doneBy done member) present
    rw [finished] at still
    cases still
  | cons what later =>
    have done : doneBy i events = [] ++ what :: later := done
    obtain ⟨before, c, after, rfl, quiet, _⟩ := exists_cut_of_doneBy done
    obtain ⟨middle, next, earlier, step, onward⟩ := path.cut
    have quiet : ∀ event ∈ before, ¬ event.IsBy i := fun event member => not_isBy_of_doneBy quiet member
    have waiting := earlier.bystander quiet present
    cases step with
    | @act _ _ _ _ _ _ effect mover ran =>
      cases waiting.symm.trans mover
      exact ⟨before, c, after, middle, effect, rfl, quiet, earlier, waiting, ran, onward⟩

/-- The thread has done in this state all that it does on the path. -/
def DoneIn (i : ℕ) (first : Pool M) (events : List (Event M)) (last middle : Pool M) : Prop :=
  ∃ before after, events = before ++ after ∧ Path first before middle ∧ Path middle after last ∧
    ∀ event ∈ after, ¬ event.IsBy i

theorem DoneIn.cons {middle state : Pool M} (path : Path first before middle)
    (done : DoneIn i middle after last state) : DoneIn i first (before ++ after) last state := by
  obtain ⟨start, rest, rfl, earlier, later, quiet⟩ := done
  exact ⟨before ++ start, rest, by simp, path.append earlier, later, quiet⟩

/-- What others keep holds in the end if it holds when the thread has done everything. -/
theorem DoneIn.kept {middle : Pool M} {P : M.Shared → Prop} (done : DoneIn i first events last middle)
    (keep : OthersKeep i first events P) (now : P middle.shared) : P last.shared := by
  obtain ⟨before, after, rfl, earlier, later, quiet⟩ := done
  induction later with
  | nil => exact now
  | @snoc state last events event later step ih =>
    rw [← List.append_assoc] at keep
    have held := ih keep.left fun other member => quiet other (List.mem_append_left _ member)
    exact keep (before ++ events) event [] state last rfl (earlier.append later) step (quiet event (by simp)) held

/-- Two executions of coupled programs return what was promised. -/
theorem Surroundings.Couples.returned {program program' : Program M.sig M.Fault M.Value}
    {post : Except M.Fault M.Value → Except M.Fault M.Value → M.Shared → M.Shared → Prop} {first' last' : Pool M}
    {events' : List (Event M)} {j : ℕ} {task task' : M.Task} {owned owned' : M.Owned}
    {result result' : Except M.Fault M.Value} (path : Path first events last) (path' : Path first' events' last')
    (around : E.Around i first events) (around' : E.Around j first' events')
    (present : first.threads[i]? = some ⟨task, owned, program⟩)
    (present' : first'.threads[j]? = some ⟨task', owned', program'⟩)
    (couples : E.Couples paired post program program' first.shared first'.shared)
    (pairs : Paired paired (stepsBy i events) (stepsBy j events')) (returned : last.Returned i task result)
    (returned' : last'.Returned j task' result') :
    ∃ middle middle', DoneIn i first events last middle ∧ DoneIn j first' events' last' middle' ∧
      post result result' middle.shared middle'.shared := by
  induction program generalizing first first' events events' owned owned' program' with
  | done value =>
    obtain ⟨value', rfl, holds⟩ := couples
    have settled : first.Returned i task value := ⟨owned, present⟩
    have settled' : first'.Returned j task' value' := ⟨owned', present'⟩
    obtain ⟨_, there⟩ := path.returned settled
    obtain ⟨_, finished⟩ := returned
    cases there.symm.trans finished
    obtain ⟨_, there'⟩ := path'.returned settled'
    obtain ⟨_, finished'⟩ := returned'
    cases there'.symm.trans finished'
    exact ⟨first, first', ⟨[], events, rfl, .nil _, path, fun _ => not_isBy_of_doneBy (path.doneBy_returned settled)⟩,
      ⟨[], events', rfl, .nil _, path', fun _ => not_isBy_of_doneBy (path'.doneBy_returned settled')⟩, holds⟩
  | call op next ih =>
    obtain ⟨next', rfl, rest⟩ := couples
    obtain ⟨before, c, after, middle, effect, rfl, quiet, earlier, waiting, ran, later⟩ :=
      path.first_step present returned
    obtain ⟨before', c', after', middle', effect', rfl, quiet', earlier', waiting', ran', later'⟩ :=
      path'.first_step present' returned'
    have moved := around.left.rely_of_quiet earlier quiet present
    have moved' := around'.left.rely_of_quiet earlier' quiet' present'
    obtain ⟨sound, granted, _⟩ := around before _ after middle _ rfl earlier (.act waiting ran)
    obtain ⟨sound', granted', _⟩ := around' before' _ after' middle' _ rfl earlier' (.act waiting' ran')
    rw [stepsBy_append, stepsBy_quiet quiet, stepsBy_cons_self, stepsBy_append,
      stepsBy_quiet quiet', stepsBy_cons_self] at pairs
    have onward := rest middle.shared middle'.shared moved moved' sound sound' c c' owned owned' effect effect'
      (granted _ _ rfl) (granted' _ _ rfl) ran ran' (pairs 0 op _ _ _ _ rfl rfl)
    rw [List.append_cons] at around around'
    obtain ⟨state, state', done, done', holds⟩ := ih effect.answer later later'
      (around.right (earlier.snoc (.act waiting ran))) (around'.right (earlier'.snoc (.act waiting' ran')))
      (Pool.advance_self waiting) (Pool.advance_self waiting') onward pairs.tail
    rw [List.append_cons, List.append_cons before']
    exact ⟨state, state', done.cons (earlier.snoc (.act waiting ran)),
      done'.cons (earlier'.snoc (.act waiting' ran')), holds⟩

/-- The event is an operation of this thread. -/
def Event.ofThread (i : ℕ) : Event M → Bool
  | .arrived _ => false
  | .performed thread _ _ => thread == i

theorem Event.ofThread_iff {event : Event M} : event.ofThread i = true ↔ event.IsBy i := by
  cases event with
  | arrived task => exact ⟨fun absurd => (Bool.false_ne_true absurd).elim, by rintro ⟨_, _, ⟨⟩⟩⟩
  | performed thread choice what =>
    constructor
    · intro same
      obtain rfl := eq_of_beq same
      exact ⟨choice, what, rfl⟩
    · rintro ⟨_, _, ⟨⟩⟩
      exact beq_self_eq_true i

/-- What one thread did is a history of its own, if its operations have the same effect when only they are executed.
-/
theorem Path.solo (covers : M.Shared → M.Shared → Prop) {allowed : M.sig.Op → Prop}
    {similar : (op : M.sig.Op) → M.sig.Answer op → M.sig.Answer op → Prop} {task : M.Task} {owned : M.Owned}
    {program : Program M.sig M.Fault M.Value} (path : Path first events last)
    (present : first.threads[i]? = some ⟨task, owned, program⟩) (agrees : program.Agrees allowed similar)
    (start : covers first.shared first.shared)
    (others : ∀ before event after middle next t, events = before ++ event :: after → Path first before middle →
      Step middle event next → ¬ event.IsBy i → covers middle.shared t → covers next.shared t)
    (own : ∀ before c op after middle owned rest (effect : Effect M.sig M.Owned M.Shared M.Task op) t, allowed op →
      events = before ++ .performed i c ⟨op, effect.answer⟩ :: after → Path first before middle →
      middle.threads[i]? = some ⟨task, owned, .call op rest⟩ → M.exec c op owned middle.shared = some effect →
      covers middle.shared t → similar op effect.answer effect.answer ∧
        ∃ t', M.exec c op owned t = some { effect with shared := t' } ∧ covers effect.shared t') :
    ∃ alone, Path first (events.filter (Event.ofThread i)) alone ∧ covers last.shared alone.shared ∧
      ∃ owned program, program.Agrees allowed similar ∧ last.threads[i]? = some ⟨task, owned, program⟩ ∧
        alone.threads[i]? = some ⟨task, owned, program⟩ := by
  induction path with
  | nil => exact ⟨first, .nil first, start, owned, program, agrees, present, present⟩
  | @snoc middle last events event path step ih =>
    obtain ⟨alone, solo, covered, owned, program, agrees, waiting, waiting'⟩ := ih
      (fun before other after middle next t cut =>
        others before other (after ++ [event]) middle next t (by simp [cut]))
      fun before c op after middle owned rest effect t permitted cut =>
        own before c op (after ++ [event]) middle owned rest effect t permitted (by simp [cut])
    rw [List.filter_append]
    by_cases mine : event.IsBy i
    · obtain ⟨c, what, rfl⟩ := mine
      rw [List.filter_cons_of_pos (Event.ofThread_iff.mpr ⟨c, what, rfl⟩), List.filter_nil]
      cases step with
      | @act _ _ _ op rest _ effect mover ran =>
        cases waiting.symm.trans mover
        obtain ⟨alike, t', ran', covered'⟩ :=
          own events c op [] middle owned rest effect alone.shared agrees.1 rfl path waiting ran covered
        have moved : Step alone (.performed i c ⟨op, effect.answer⟩)
            (alone.advance i task rest { effect with shared := t' }) :=
          .act waiting' ran'
        exact ⟨_, solo.snoc moved, covered', effect.owned, rest effect.answer, (agrees.2 _ _ alike).2,
          Pool.advance_self waiting, Pool.advance_self waiting'⟩
    · rw [List.filter_cons_of_neg (by rwa [Event.ofThread_iff]), List.filter_nil, List.append_nil]
      exact ⟨alone, solo, others events event [] middle last alone.shared rfl path step mine covered, owned, program,
        agrees, step.bystander mine waiting, waiting'⟩

end Paths

/-- A thread that is executed alone meets the choices of its schedule. -/
theorem Pool.replay?_stepsBy {pool last : Pool M} {i : ℕ} {choices : List M.Choice} {events : List (Event M)}
    (ran : pool.replay? (choices.map (.act i)) = some (events, last)) :
    (stepsBy i events).map Prod.fst = choices := by
  induction choices generalizing pool events with
  | nil =>
    cases ran
    rfl
  | cons choice rest ih =>
    obtain ⟨event, next, later, rfl, moved, replayed⟩ := replay?_cons ran
    obtain ⟨what, rfl⟩ := next?_act moved
    rw [stepsBy_cons_self, List.map_cons, ih replayed]

end Interleaving
