import AgentPlatform.Interleaving.Pool
import Mathlib.Algebra.BigOperators.Group.Finset.Basic
import Mathlib.Algebra.BigOperators.Group.Finset.Piecewise
import Mathlib.Algebra.Order.BigOperators.Group.Finset

/-! # Bounded work

Every operation has a cost, and a program stays within a budget if no sequence of answers makes it
spend more. When an operation that starts a thread pays for the work of that thread, the budgets of
the tasks that came from outside bound the length of every run. A pool in which somebody can always
move then comes to an end.
-/

set_option autoImplicit false

namespace Interleaving

namespace Program

variable {sig : Signature} {ε ε' α β : Type} {cost : sig.Op → ℕ} {m n : ℕ}

/-- The operations of the program cost at most so much, whatever answers it gets. -/
def Within (cost : sig.Op → ℕ) : Program sig ε α → ℕ → Prop
  | .done _, _ => True
  | .call op next, budget => cost op ≤ budget ∧ ∀ answer, (next answer).Within cost (budget - cost op)

@[simp] theorem within_done {result : Except ε α} : (Program.done result : Program sig ε α).Within cost n := trivial

@[simp] theorem within_pure {value : α} : (pure value : Program sig ε α).Within cost n := trivial

@[simp] theorem within_throw {fault : ε} : (throw fault : Program sig ε α).Within cost n := trivial

theorem within_perform {op : sig.Op} (pays : cost op ≤ n) : (perform op : Program sig ε _).Within cost n :=
  ⟨pays, fun _ => trivial⟩

theorem Within.mono {program : Program sig ε α} (within : program.Within cost m)
    (more : m ≤ n) : program.Within cost n := by
  induction program generalizing m n with
  | done result => trivial
  | call op next ih => exact ⟨within.1.trans more, fun answer => ih answer (within.2 answer) (by omega)⟩

theorem Within.handle {program : Program sig ε α} {rest : Except ε α → Program sig ε' β}
    (first : program.Within cost m) (second : ∀ result, (rest result).Within cost n) :
    (program.handle rest).Within cost (m + n) := by
  induction program generalizing m with
  | done result => exact (second result).mono (by omega)
  | call op next ih =>
    obtain ⟨pays, later⟩ := first
    refine ⟨by omega, fun answer => ?_⟩
    have split : m + n - cost op = m - cost op + n := by omega
    rw [split]
    exact ih answer (later answer)

theorem Within.bind {program : Program sig ε α} {rest : α → Program sig ε β} (first : program.Within cost m)
    (second : ∀ value, (rest value).Within cost n) : (program >>= rest).Within cost (m + n) := by
  apply first.handle
  rintro (fault | value)
  · trivial
  · exact second value

theorem Within.onError {program : Program sig ε α} {cleanup : Program sig ε Unit} (first : program.Within cost m)
    (cleans : cleanup.Within cost n) : (program.onError cleanup).Within cost (m + n) := by
  apply first.handle
  rintro (fault | value)
  · exact (cleans.handle fun _ => @within_done _ _ _ _ 0 _).mono (by omega)
  · trivial

theorem Within.ensuring {program : Program sig ε α} {cleanup : Program sig ε Unit} (first : program.Within cost m)
    (cleans : cleanup.Within cost n) : (program.ensuring cleanup).Within cost (m + n) := by
  apply first.handle
  intro result
  exact (cleans.handle fun _ => @within_done _ _ _ _ 0 _).mono (by omega)

theorem within_ite {condition : Prop} [Decidable condition] {first second : Program sig ε α}
    (yes : first.Within cost n) (no : second.Within cost n) :
    (if condition then first else second).Within cost n := by
  split
  · exact yes
  · exact no

end Program

section Pools

variable {M : Machine} {cost : M.sig.Op → ℕ} {load : M.Task → ℕ} {first last pool next : Pool M}
  {events : List (Event M)} {event : Event M} {left : ℕ → ℕ} {threads : List (Thread M)} {i amount : ℕ}

/-- Every thread stays within what is left of its budget. -/
def Funded (cost : M.sig.Op → ℕ) (threads : List (Thread M)) (left : ℕ → ℕ) : Prop :=
  ∀ (i : ℕ) (thread : Thread M), threads[i]? = some thread → thread.program.Within cost (left i)

/-- What is left of the first so many budgets. -/
def remaining (left : ℕ → ℕ) (count : ℕ) : ℕ := ∑ i ∈ Finset.range count, left i

/-- What the tasks that came from outside may cost, their arrival included. -/
def workload (load : M.Task → ℕ) : List (Event M) → ℕ
  | [] => 0
  | .arrived task :: rest => 1 + load task + workload load rest
  | .performed .. :: rest => workload load rest

@[simp] theorem workload_append (before after : List (Event M)) :
    workload load (before ++ after) = workload load before + workload load after := by
  induction before with
  | nil => simp [workload]
  | cons event rest ih =>
    cases event with
    | arrived task =>
      simp only [List.cons_append, workload, ih]
      omega
    | performed i choice what =>
      simp only [List.cons_append, workload, ih]

/-- Operations are not free, and an operation that starts a thread pays for it. -/
def Pays (cost : M.sig.Op → ℕ) (load : M.Task → ℕ) : Prop :=
  ∀ choice op owned s effect, M.exec choice op owned s = some effect →
    1 + (effect.spawned.elim 0 fun started => load started.1) ≤ cost op

theorem remaining_set {count : ℕ} (inside : i < count) :
    remaining (Function.update left i amount) count + left i = remaining left count + amount := by
  have member : i ∈ Finset.range count := Finset.mem_range.mpr inside
  have before := Finset.add_sum_erase _ left member
  have after := Finset.add_sum_erase _ (Function.update left i amount) member
  have same : ∑ j ∈ (Finset.range count).erase i,
      Function.update left i amount j = ∑ j ∈ (Finset.range count).erase i, left j :=
    Finset.sum_congr rfl fun j other => Function.update_of_ne (Finset.ne_of_mem_erase other) ..
  rw [Function.update_self, same] at after
  simp only [remaining]
  omega

theorem remaining_succ (count : ℕ) : remaining (Function.update left count amount)
    (count + 1) = remaining left count + amount := by
  have same : ∑ j ∈ Finset.range count, Function.update left count amount j = ∑ j ∈ Finset.range count, left j := by
    apply Finset.sum_congr rfl
    intro j inside
    have below := Finset.mem_range.mp inside
    exact Function.update_of_ne (by omega) ..
  rw [remaining, Finset.sum_range_succ, same, Function.update_self, remaining]

theorem Funded.set {thread : Thread M} (funded : Funded cost threads left) (inside : i < threads.length)
    (within : thread.program.Within cost amount) : Funded cost (threads.set i thread)
    (Function.update left i amount) := by
  intro j other found
  by_cases same : j = i
  · subst same
    rw [List.getElem?_set_self inside] at found
    rw [Function.update_self, ← Option.some.inj found]
    exact within
  · rw [List.getElem?_set_ne (Ne.symm same)] at found
    rw [Function.update_of_ne same]
    exact funded j other found

theorem Funded.append {thread : Thread M} (funded : Funded cost threads left)
    (within : thread.program.Within cost amount) :
    Funded cost (threads ++ [thread]) (Function.update left threads.length amount) := by
  intro j other found
  rw [List.getElem?_append] at found
  split at found
  · next inside =>
    rw [Function.update_of_ne (by omega)]
    exact funded j other found
  · next outside =>
    rw [List.getElem?_singleton] at found
    split at found
    · obtain rfl : j = threads.length := by omega
      rw [Function.update_self, ← Option.some.inj found]
      exact within
    · contradiction

/-- A step spends some of the budgets, or brings a new one. -/
theorem Funded.step (pays : Pays cost load) (fits : ∀ task, (M.body task).Within cost (load task))
    (funded : Funded cost pool.threads left) (step : Step pool event next) : ∃ left', Funded cost next.threads left' ∧
      1 + remaining left' next.threads.length ≤ remaining left pool.threads.length + workload load [event] := by
  cases step with
  | @arrive task accepted =>
    refine ⟨_, funded.append (fits task), ?_⟩
    rw [List.length_append, List.length_singleton, remaining_succ]
    simp only [workload]
    omega
  | @act i task owned op rest choice effect present ran =>
    have inside := (List.getElem?_eq_some_iff.mp present).1
    obtain ⟨affordable, later⟩ := funded i _ present
    have paid := pays _ _ _ _ _ ran
    have moved : Funded cost (pool.threads.set i ⟨task, effect.owned, rest effect.answer⟩)
        (Function.update left i (left i - cost op)) := funded.set inside (later effect.answer)
    have spent := @remaining_set left i (left i - cost op) _ inside
    cases started : effect.spawned with
    | none =>
      rw [started] at paid
      simp only [Pool.advance, started, Option.map_none, Option.toList_none, List.append_nil, List.length_set]
      refine ⟨_, moved, ?_⟩
      simp only [Option.elim_none] at paid
      omega
    | some given =>
      rw [started] at paid
      simp only [Pool.advance, started, Option.map_some, Option.toList_some]
      refine ⟨_, moved.append (fits given.1), ?_⟩
      rw [List.length_append, List.length_singleton, remaining_succ, List.length_set]
      simp only [Option.elim_some] at paid
      omega

/-- The budgets of the tasks from outside pay for everything that happens. -/
theorem Path.work_bounded (path : Path first events last) (pays : Pays cost load)
    (fits : ∀ task, (M.body task).Within cost (load task)) (funded : Funded cost first.threads left) :
    ∃ left', Funded cost last.threads left' ∧
      events.length + remaining left' last.threads.length ≤ remaining left
        first.threads.length + workload load events := by
  induction path with
  | nil => exact ⟨left, funded, by simp⟩
  | snoc path step ih =>
    obtain ⟨middle, funded, spent⟩ := ih
    obtain ⟨left', funded, more⟩ := funded.step pays fits step
    refine ⟨left', funded, ?_⟩
    rw [List.length_append, List.length_singleton, workload_append]
    omega

/-- Every run is as long as its tasks from outside are costly, at most. -/
theorem Path.length_le_workload (path : Path first events last) (empty : first.threads = []) (pays : Pays cost load)
    (fits : ∀ task, (M.body task).Within cost (load task)) : events.length ≤ workload load events := by
  have funded : Funded cost first.threads fun _ => 0 := by
    intro i thread present
    simp [empty] at present
  obtain ⟨left', _, spent⟩ := path.work_bounded pays fits funded
  have nothing : remaining (fun _ => 0) first.threads.length = 0 := by simp [remaining]
  omega

/-- All threads have returned. -/
def Pool.Settled (pool : Pool M) : Prop :=
  ∀ (i : ℕ) (thread : Thread M), pool.threads[i]? = some thread → ∃ result, thread.program = .done result

/-- If some thread can always make a step of some kind, such steps lead to the end. -/
theorem Pool.settles {kind : Pool M → Event M → Prop} {keeps : Pool M → Prop} (pays : Pays cost load)
    (fits : ∀ task, (M.body task).Within cost (load task))
    (progress : ∀ pool, keeps pool → ¬ pool.Settled → ∃ i choice what next,
      Step pool (.performed i choice what) next ∧ kind pool (.performed i choice what) ∧ keeps next)
    (funded : Funded cost pool.threads left) (now : keeps pool) :
    ∃ events last, Path pool events last ∧ keeps last ∧ last.Settled ∧
      ∀ before middle event after, events = before ++ event :: after →
        Path pool before middle → kind middle event := by
  generalize amount : remaining left pool.threads.length = budget
  induction budget using Nat.strong_induction_on generalizing pool left with
  | _ budget ih =>
    by_cases settled : pool.Settled
    · exact ⟨[], pool, .nil pool, now, settled, by simp⟩
    obtain ⟨i, choice, what, next, step, good, later⟩ := progress pool now settled
    obtain ⟨left', funded, spent⟩ := funded.step pays fits step
    simp only [workload] at spent
    obtain ⟨events, last, path, kept, ended, all⟩ := ih _ (by omega) funded later rfl
    refine ⟨_ :: events, last, (Path.single step).append path, kept, ended, ?_⟩
    intro before middle event after cut reached
    cases before with
    | nil =>
      obtain ⟨rfl, _⟩ := List.cons.inj cut
      exact reached.unique (.nil pool) ▸ good
    | cons head before =>
      obtain ⟨rfl, rest⟩ := List.cons.inj cut
      obtain ⟨next', step', onward⟩ := reached.of_cons
      exact all before middle event after rest (step.unique step' ▸ onward)

end Pools

end Interleaving
