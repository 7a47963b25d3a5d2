import Mathlib.Data.List.Induction
import Mathlib.Logic.Relation
import Mathlib.Tactic.Common

/-! # Fallible programs over atomic operations

A program is finished with a result or waits for the answer to its next operation. Answers are
typed by the operation, so a continuation never inspects an answer of the wrong kind. Failure is
part of the result: `handle` continues after either outcome, and sequencing, recovery and
clean-up are its instances. Programs are finite trees, hence every recursion over one is
structural and a program can be executed by the kernel.
-/

set_option autoImplicit false

namespace Interleaving

/-- The atomic operations of a system, each with the type of its answers. -/
structure Signature where
  Op : Type
  Answer : Op → Type

/-- One executed operation together with the answer it got. -/
structure Performed (sig : Signature) where
  op : sig.Op
  answer : sig.Answer op

inductive Program (sig : Signature) (ε α : Type) : Type
  | done (result : Except ε α)
  | call (op : sig.Op) (next : sig.Answer op → Program sig ε α)

namespace Program

variable {sig : Signature} {ε ε' α β γ : Type}

/-- Continue with the result of a program, whether it is a value or an error. -/
def handle : Program sig ε α → (Except ε α → Program sig ε' β) → Program sig ε' β
  | .done result, rest => rest result
  | .call op next, rest => .call op fun answer => (next answer).handle rest

/-- Sequencing stops at the first error. -/
def andThen (program : Program sig ε α) (rest : α → Program sig ε β) : Program sig ε β :=
  program.handle fun
    | .ok value => rest value
    | .error fault => .done (.error fault)

instance : Monad (Program sig ε) where
  pure value := .done (.ok value)
  bind := andThen

instance : MonadExceptOf ε (Program sig ε) where
  throw fault := .done (.error fault)
  tryCatch program recover := program.handle fun
    | .ok value => .done (.ok value)
    | .error fault => recover fault

/-- A single operation, returning its answer. -/
def perform (op : sig.Op) : Program sig ε (sig.Answer op) :=
  .call op fun answer => .done (.ok answer)

/-- Run the clean-up when the program fails, and fail with the same error. -/
def onError (program : Program sig ε α) (cleanup : Program sig ε Unit) : Program sig ε α :=
  program.handle fun
    | .ok value => .done (.ok value)
    | .error fault => cleanup.handle fun _ => .done (.error fault)

/-- Run the clean-up whatever the result is, and return that result. -/
def ensuring (program : Program sig ε α) (cleanup : Program sig ε Unit) : Program sig ε α :=
  program.handle fun result => cleanup.handle fun _ => .done result

/-- Turn the errors of a program into values. -/
def attempt (program : Program sig ε α) : Program sig ε (Except ε α) :=
  program.handle fun result => .done (.ok result)

@[simp] theorem handle_done (result : Except ε α) (rest : Except ε α → Program sig ε' β) :
    (Program.done result).handle rest = rest result := rfl

@[simp] theorem handle_call (op : sig.Op) (next : sig.Answer op → Program sig ε α)
    (rest : Except ε α → Program sig ε' β) :
    (Program.call op next).handle rest = .call op fun answer => (next answer).handle rest := rfl

/-- Every operation the program may still issue, whatever answers it gets, is allowed. -/
def Uses (allowed : sig.Op → Prop) : Program sig ε α → Prop
  | .done _ => True
  | .call op next => allowed op ∧ ∀ answer, (next answer).Uses allowed

section Uses

variable {allowed : sig.Op → Prop}

@[simp] theorem uses_done (result : Except ε α) : (Program.done result : Program sig ε α).Uses allowed :=
  trivial

@[simp] theorem uses_pure (value : α) : (pure value : Program sig ε α).Uses allowed := trivial

@[simp] theorem uses_throw (fault : ε) : (throw fault : Program sig ε α).Uses allowed := trivial

theorem uses_perform {op : sig.Op} (permitted : allowed op) :
    (perform op : Program sig ε _).Uses allowed := ⟨permitted, fun _ => trivial⟩

theorem uses_handle {program : Program sig ε α} {rest : Except ε α → Program sig ε' β}
    (first : program.Uses allowed) (second : ∀ result, (rest result).Uses allowed) :
    (program.handle rest).Uses allowed := by
  induction program with
  | done result => exact second result
  | call op next ih => exact ⟨first.1, fun answer => ih answer (first.2 answer)⟩

theorem uses_bind {program : Program sig ε α} {rest : α → Program sig ε β}
    (first : program.Uses allowed) (second : ∀ value, (rest value).Uses allowed) :
    (program >>= rest).Uses allowed := by
  apply uses_handle first
  rintro (fault | value)
  · trivial
  · exact second value

theorem uses_ite {condition : Prop} [Decidable condition] {first second : Program sig ε α}
    (yes : first.Uses allowed) (no : second.Uses allowed) : (if condition then first else second).Uses allowed := by
  split
  · exact yes
  · exact no

theorem Uses.mono {other : sig.Op → Prop} {program : Program sig ε α}
    (uses : program.Uses allowed) (weaker : ∀ op, allowed op → other op) : program.Uses other := by
  induction program with
  | done result => trivial
  | call op next ih => exact ⟨weaker op uses.1, fun answer => ih answer (uses.2 answer)⟩

end Uses

/-- After these operations and answers the program has become `rest`. -/
inductive Follows (program : Program sig ε α) : List (Performed sig) → Program sig ε α → Prop
  | start : Follows program [] program
  | step {past : List (Performed sig)} {op : sig.Op} {next : sig.Answer op → Program sig ε α}
      (follows : Follows program past (.call op next)) (answer : sig.Answer op) :
      Follows program (past ++ [⟨op, answer⟩]) (next answer)

namespace Follows

variable {program rest : Program sig ε α} {past : List (Performed sig)} {allowed : sig.Op → Prop}

/-- A program that waits for its first answer has not done anything, or has got that answer. -/
theorem cases_call {op : sig.Op} {next : sig.Answer op → Program sig ε α}
    (follows : Follows (.call op next) past rest) :
    (past = [] ∧ rest = .call op next) ∨
      ∃ answer later, past = ⟨op, answer⟩ :: later ∧ Follows (next answer) later rest := by
  induction follows with
  | start => exact .inl ⟨rfl, rfl⟩
  | step follows answer ih =>
    rcases ih with ⟨rfl, same⟩ | ⟨first, later, rfl, tail⟩
    · cases same
      exact .inr ⟨answer, [], rfl, .start⟩
    · exact .inr ⟨first, _, rfl, .step tail answer⟩

/-- A finished program stays finished. -/
theorem cases_done {result : Except ε α} (follows : Follows (.done result) past rest) :
    past = [] ∧ rest = .done result := by
  induction follows with
  | start => exact ⟨rfl, rfl⟩
  | step follows answer ih => cases ih.2

theorem eq_of_nil (follows : Follows program [] rest) : rest = program := by
  generalize nothing : ([] : List (Performed sig)) = past at follows
  cases follows with
  | start => rfl
  | step follows answer => simp at nothing

theorem uses (follows : Follows program past rest) (uses : program.Uses allowed) :
    (∀ what ∈ past, allowed what.op) ∧ rest.Uses allowed := by
  induction follows with
  | start => exact ⟨by simp, uses⟩
  | step follows answer ih =>
    obtain ⟨done, permitted, later⟩ := ih
    refine ⟨fun what member => ?_, later answer⟩
    rcases List.mem_append.mp member with old | new
    · exact done what old
    · obtain rfl := List.mem_singleton.mp new
      exact permitted

theorem trans {mid : Program sig ε α} {more : List (Performed sig)} (first : Follows program past mid)
    (later : Follows mid more rest) : Follows program (past ++ more) rest := by
  induction later with
  | start => rwa [List.append_nil]
  | step follows answer ih =>
    rw [← List.append_assoc]
    exact .step ih answer

/-- What a program does is also done by what continues after it. -/
theorem handle {continuation : Except ε α → Program sig ε' β} (follows : Follows program past rest) :
    Follows (program.handle continuation) past (rest.handle continuation) := by
  induction follows with
  | start => exact .start
  | step follows answer ih => exact ih.step answer

end Follows

/-! ## Histories -/

/-- After every history that leads there, each operation is allowed and each result is as promised. -/
def Along (allowed : List (Performed sig) → sig.Op → Prop) (returns : List (Performed sig) → Except ε α → Prop) :
    Program sig ε α → List (Performed sig) → Prop
  | .done result, past => returns past result
  | .call op next, past => allowed past op ∧ ∀ answer, (next answer).Along allowed returns (past ++ [⟨op, answer⟩])

section Along

variable {allowed : List (Performed sig) → sig.Op → Prop} {past : List (Performed sig)}

@[simp] theorem along_done {returns : List (Performed sig) → Except ε α → Prop} {result : Except ε α} :
    (Program.done result).Along allowed returns past ↔ returns past result := .rfl

theorem Along.handle (mid : List (Performed sig) → Except ε α → Prop)
    {returns : List (Performed sig) → Except ε' β → Prop} {program : Program sig ε α}
    {rest : Except ε α → Program sig ε' β} (first : program.Along allowed mid past)
    (second : ∀ past result, mid past result → (rest result).Along allowed returns past) :
    (program.handle rest).Along allowed returns past := by
  induction program generalizing past with
  | done result => exact second past result first
  | call op next ih => exact ⟨first.1, fun answer => ih answer (first.2 answer)⟩

theorem Along.bind (mid : List (Performed sig) → Except ε α → Prop)
    {returns : List (Performed sig) → Except ε β → Prop} {program : Program sig ε α} {rest : α → Program sig ε β}
    (first : program.Along allowed mid past)
    (value : ∀ past value, mid past (.ok value) → (rest value).Along allowed returns past)
    (error : ∀ past fault, mid past (.error fault) → returns past (.error fault)) :
    (program >>= rest).Along allowed returns past := by
  apply handle mid first
  rintro past (fault | result) holds
  · exact error past fault holds
  · exact value past result holds

theorem Along.mono {returns weaker : List (Performed sig) → Except ε α → Prop} {program : Program sig ε α}
    (along : program.Along allowed returns past) (weakens : ∀ past result, returns past result → weaker past result) :
    program.Along allowed weaker past := by
  induction program generalizing past with
  | done result => exact weakens past result along
  | call op next ih => exact ⟨along.1, fun answer => ih answer (along.2 answer)⟩

theorem Along.and {other : List (Performed sig) → sig.Op → Prop}
    {returns more : List (Performed sig) → Except ε α → Prop} {program : Program sig ε α}
    (left : program.Along allowed returns past) (right : program.Along other more past) :
    program.Along (fun past op => allowed past op ∧ other past op)
    (fun past result => returns past result ∧ more past result) past := by
  induction program generalizing past with
  | done result => exact ⟨left, right⟩
  | call op next ih => exact ⟨⟨left.1, right.1⟩, fun answer => ih answer (left.2 answer) (right.2 answer)⟩

theorem Along.allow {weaker : List (Performed sig) → sig.Op → Prop}
    {returns : List (Performed sig) → Except ε α → Prop} {program : Program sig ε α}
    (along : program.Along allowed returns past) (weakens : ∀ past op, allowed past op → weaker past op) :
    program.Along weaker returns past := by
  induction program generalizing past with
  | done result => exact along
  | call op next ih => exact ⟨weakens past op along.1, fun answer => ih answer (along.2 answer)⟩

/-- A program only adds operations of its kind to the history. -/
theorem Along.of_uses {kind : sig.Op → Prop} {program : Program sig ε α} (uses : program.Uses kind)
    (fine : ∀ more op, kind op → allowed (past ++ more) op) :
    program.Along allowed (fun later _ => ∃ more, later = past ++ more ∧ ∀ what ∈ more, kind what.op) past := by
  induction program generalizing past with
  | done result => exact ⟨[], by simp⟩
  | call op next ih =>
    have first := fine [] op uses.1
    rw [List.append_nil] at first
    refine ⟨first, fun answer => (ih answer (uses.2 answer) ?_).mono ?_⟩
    · intro more op kind
      rw [List.append_assoc]
      exact fine _ op kind
    · rintro later result ⟨more, rfl, kinds⟩
      refine ⟨⟨op, answer⟩ :: more, by simp, fun what member => ?_⟩
      rcases List.mem_cons.mp member with rfl | old
      · exact uses.1
      · exact kinds what old

theorem Follows.along {returns : List (Performed sig) → Except ε α → Prop} {program rest : Program sig ε α}
    {before : List (Performed sig)} (follows : Follows program past rest)
    (along : program.Along allowed returns before) : rest.Along allowed returns (before ++ past) := by
  induction follows with
  | start => simpa using along
  | step follows answer ih =>
    rw [← List.append_assoc]
    exact ih.2 answer

end Along

/-! ## Errors -/

/-- Whatever it is answered, the program fails with these errors only. -/
def Fails (allowed : ε → Prop) : Program sig ε α → Prop
  | .done (.ok _) => True
  | .done (.error fault) => allowed fault
  | .call _ next => ∀ answer, (next answer).Fails allowed

section Fails

variable {allowed mid : ε → Prop}

theorem fails_any (program : Program sig ε α) : program.Fails fun _ => True := by
  induction program with
  | done result => cases result <;> trivial
  | call op next ih => exact ih

theorem fails_handle {allowed : ε' → Prop} {program : Program sig ε α} {rest : Except ε α → Program sig ε' β}
    (first : program.Fails mid) (value : ∀ value, (rest (.ok value)).Fails allowed)
    (error : ∀ fault, mid fault → (rest (.error fault)).Fails allowed) : (program.handle rest).Fails allowed := by
  induction program with
  | done result =>
    cases result with
    | ok result => exact value result
    | error fault => exact error fault first
  | call op next ih => exact fun answer => ih answer (first answer)

theorem fails_bind {program : Program sig ε α} {rest : α → Program sig ε β} (first : program.Fails allowed)
    (value : ∀ value, (rest value).Fails allowed) : (program >>= rest).Fails allowed :=
  fails_handle first value fun _ fails => fails

/-- Cleaning up does not change the error. -/
theorem fails_onError {program : Program sig ε α} (cleanup : Program sig ε Unit) (first : program.Fails allowed) :
    (program.onError cleanup).Fails allowed :=
  fails_handle first (fun _ => True.intro) fun _ fails => fails_handle (fails_any cleanup)
    (fun _ => fails) fun _ _ => fails

theorem Along.of_fails {program : Program sig ε α} {past : List (Performed sig)} (fails : program.Fails allowed) :
    program.Along (fun _ _ => True) (fun _ result => ∀ fault, result = .error fault → allowed fault) past := by
  induction program generalizing past with
  | done result =>
    rintro fault rfl
    exact fails
  | call op next ih => exact ⟨True.intro, fun answer => ih answer (fails answer)⟩

end Fails

end Program

end Interleaving
