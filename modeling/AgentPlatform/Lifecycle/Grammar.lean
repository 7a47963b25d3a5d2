import AgentPlatform.Lifecycle.Stage

/-! # The grammar of traces

The traces of finished runs as a language of event lists, written down without reference to stages.
The trace of a run in any reachable stage is a prefix of a word, and in a prefix of a word the closing
event is the last one.
-/

set_option autoImplicit false

namespace AgentPlatform

namespace Grammar

/-- The payload of an `llm_call` of this iteration with a decision of this type. -/
structure Calls (iteration : ℕ) (type : String) (call : Value) : Prop where
  iteration : call.get "iteration" = some (.int iteration)
  decision : ∃ decision, call.get "decision" = some decision ∧ decision.get "type" = some (.string type)

/-- The reason that is reserved for runs without further iterations. -/
def maxIterationsExceeded : Value := .string "max_iterations_exceeded"

/-- The rest of a trace, from this iteration on. -/
inductive Iterations (maxIterations : ℕ) : ℕ → List (EventType × Value) → Prop
  | exhausted {closing : Value} (ends : closing.get "status" = some (.string "failed"))
      (reason : closing.get "error_reason" = some maxIterationsExceeded) :
      Iterations maxIterations (maxIterations + 1) [(.runEnd, closing)]
  | executed {iteration : ℕ} {call exec decision toolId : Value} {rest : List (EventType × Value)}
      (room : iteration ≤ maxIterations) (calls : Calls iteration "tool_call" call)
      (decided : call.get "decision" = some decision) (named : decision.get "tool_id" = some toolId)
      (same : exec.get "tool_id" = some toolId) (later : Iterations maxIterations (iteration + 1) rest) :
      Iterations maxIterations iteration ((.llmCall, call) :: (.toolExec, exec) :: rest)
  | failed {iteration : ℕ} {call closing : Value} (room : iteration ≤ maxIterations)
      (calls : Calls iteration "tool_call" call) (ends : closing.get "status" = some (.string "failed"))
      (reason : closing.get "error_reason" ≠ some maxIterationsExceeded) :
      Iterations maxIterations iteration [(.llmCall, call), (.runEnd, closing)]
  | answered {call closing : Value} (room : 3 ≤ maxIterations) (calls : Calls 3 "final_answer" call)
      (ends : closing.get "status" = some (.string "success"))
      (reason : closing.get "error_reason" ≠ some maxIterationsExceeded) :
      Iterations maxIterations 3 [(.llmCall, call), (.runEnd, closing)]

/-- The traces of finished runs of an agent with this many iterations. -/
inductive Word (maxIterations : ℕ) : List (EventType × Value) → Prop
  | rejected {created decision closing : Value} (rejects : decision.get "decision" = some (.string "rejected"))
      (ends : closing.get "status" = some (.string "failed"))
      (reason : closing.get "error_reason" ≠ some maxIterationsExceeded) :
      Word maxIterations [(.runCreated, created), (.schedulerDecision, decision), (.runEnd, closing)]
  | accepted {created decision started : Value} {rest : List (EventType × Value)}
      (accepts : decision.get "decision" = some (.string "accepted")) (iterations : Iterations maxIterations 1 rest) :
      Word maxIterations ((.runCreated, created) :: (.schedulerDecision, decision) :: (.runStarted, started) :: rest)

/-- The executed tool calls of a trace. -/
def toolExecs (trace : List (EventType × Value)) : ℕ := trace.countP fun event => event.1 = .toolExec

variable {maxIterations iteration : ℕ} {trace before after : List (EventType × Value)} {payload : Value}

/-! ## Words -/

theorem Iterations.length_le (iterations : Iterations maxIterations iteration trace) :
    trace.length + 2 * iteration ≤ 2 * maxIterations + 4 := by
  induction iterations with
  | exhausted ends reason => simp; omega
  | executed room calls decided named same later ih => simp only [List.length_cons]; omega
  | failed room calls ends reason => simp; omega
  | answered room calls ends reason => simp; omega

theorem Word.length_le (word : Word maxIterations trace) : trace.length ≤ 2 * maxIterations + 5 := by
  cases word with
  | rejected rejects ends reason => simp
  | accepted accepts iterations =>
    have bound := iterations.length_le
    simp only [List.length_cons]
    omega

/-- An event list around one of its events. -/
private theorem cons_split {first event : EventType × Value} {rest : List (EventType × Value)}
    (split : first :: rest = before ++ event :: after) :
    (before = [] ∧ first = event ∧ rest = after) ∨
      ∃ tail, before = first :: tail ∧ rest = tail ++ event :: after := by
  cases before with
  | nil =>
    obtain ⟨same, tail⟩ := List.cons.inj split
    exact .inl ⟨rfl, same, tail⟩
  | cons other tail =>
    obtain ⟨rfl, same⟩ := List.cons.inj split
    exact .inr ⟨tail, rfl, same⟩

/-- The events of an iteration before its tool call, or before its end. -/
private theorem pair_split {first second event : EventType × Value} {rest : List (EventType × Value)}
    (split : first :: second :: rest = before ++ event :: after) :
    (before = [] ∧ first = event) ∨ (before = [first] ∧ second = event ∧ rest = after) ∨
      ∃ tail, before = first :: second :: tail ∧ rest = tail ++ event :: after := by
  rcases cons_split split with ⟨rfl, same, _⟩ | ⟨tail, rfl, later⟩
  · exact .inl ⟨rfl, same⟩
  rcases cons_split later with ⟨rfl, same, rest⟩ | ⟨tail, rfl, last⟩
  · exact .inr (.inl ⟨rfl, same, rest⟩)
  · exact .inr (.inr ⟨tail, rfl, last⟩)

/-- The closing event is the last one, and the reserved reason comes after all iterations. -/
theorem Iterations.closing (iterations : Iterations maxIterations iteration trace)
    (split : trace = before ++ (.runEnd, payload) :: after) :
    after = [] ∧ (payload.get "error_reason" = some maxIterationsExceeded →
      toolExecs before + iteration = maxIterations + 1) := by
  induction iterations generalizing before with
  | exhausted ends reason =>
    rcases cons_split split with ⟨rfl, _, rfl⟩ | ⟨tail, _, absurd⟩
    · exact ⟨rfl, fun _ => by simp [toolExecs]⟩
    · simp at absurd
  | executed room calls decided named same later ih =>
    rcases pair_split split with ⟨_, other⟩ | ⟨_, other, _⟩ | ⟨tail, rfl, rest⟩
    · cases other
    · cases other
    · obtain ⟨last, counted⟩ := ih rest
      refine ⟨last, fun reserved => ?_⟩
      have count := counted reserved
      simp only [toolExecs, List.countP_cons] at count ⊢
      simp only [reduceCtorEq, decide_false, decide_true, Bool.false_eq_true, ↓reduceIte]
      omega
  | failed room calls ends reason =>
    rcases pair_split split with ⟨_, other⟩ | ⟨_, same, rfl⟩ | ⟨tail, _, absurd⟩
    · cases other
    · cases same
      exact ⟨rfl, fun reserved => absurd reserved reason⟩
    · simp at absurd
  | answered room calls ends reason =>
    rcases pair_split split with ⟨_, other⟩ | ⟨_, same, rfl⟩ | ⟨tail, _, absurd⟩
    · cases other
    · cases same
      exact ⟨rfl, fun reserved => absurd reserved reason⟩
    · simp at absurd

private theorem Calls.type_eq {call : Value} {type other : String} (calls : Calls iteration type call)
    (decides : ∃ decision, call.get "decision" = some decision ∧ decision.get "type" = some (.string other)) :
    type = other := by
  obtain ⟨decision, decided, typed⟩ := calls.decision
  obtain ⟨_, decided', typed'⟩ := decides
  cases decided.symm.trans decided'
  cases typed.symm.trans typed'
  rfl

/-- A final answer is given after two tool calls. -/
theorem Iterations.answering (iterations : Iterations maxIterations iteration trace) {call : Value}
    (split : trace = before ++ (.llmCall, call) :: after)
    (answers : ∃ decision, call.get "decision" = some decision ∧
      decision.get "type" = some (.string "final_answer")) :
    toolExecs before + iteration = 3 := by
  induction iterations generalizing before with
  | exhausted ends reason =>
    rcases cons_split split with ⟨_, other, _⟩ | ⟨tail, _, absurd⟩
    · cases other
    · simp at absurd
  | executed room calls decided named same later ih =>
    rcases pair_split split with ⟨_, same⟩ | ⟨_, other, _⟩ | ⟨tail, rfl, rest⟩
    · cases same
      exact absurd (calls.type_eq answers) (by decide)
    · cases other
    · have count := ih rest
      simp only [toolExecs, List.countP_cons] at count ⊢
      simp only [reduceCtorEq, decide_false, decide_true, Bool.false_eq_true, ↓reduceIte]
      omega
  | failed room calls ends reason =>
    rcases pair_split split with ⟨_, same⟩ | ⟨_, other, _⟩ | ⟨tail, _, absurd⟩
    · cases same
      exact absurd (calls.type_eq answers) (by decide)
    · cases other
    · simp at absurd
  | answered room calls ends reason =>
    rcases pair_split split with ⟨rfl, _⟩ | ⟨_, other, _⟩ | ⟨tail, _, absurd⟩
    · rfl
    · cases other
    · simp at absurd

theorem Iterations.types (iterations : Iterations maxIterations iteration trace) {event : EventType × Value}
    (member : event ∈ trace) : event.1 ∈ [.llmCall, .toolExec, .runEnd] := by
  induction iterations with
  | executed room calls decided named same later ih =>
    simp only [List.mem_cons] at member
    rcases member with rfl | rfl | later
    · simp
    · simp
    · exact ih later
  | exhausted ends reason => simp_all
  | failed room calls ends reason =>
    simp only [List.mem_cons, List.not_mem_nil, or_false] at member
    rcases member with rfl | rfl <;> simp
  | answered room calls ends reason =>
    simp only [List.mem_cons, List.not_mem_nil, or_false] at member
    rcases member with rfl | rfl <;> simp

/-- The events of a word before its iterations. -/
private theorem opening_split {a b c event : EventType × Value} {rest : List (EventType × Value)}
    (split : a :: b :: c :: rest = before ++ event :: after) :
    (before = [] ∧ a = event) ∨ (before = [a] ∧ b = event) ∨ (before = [a, b] ∧ c = event ∧ rest = after) ∨
      ∃ tail, before = a :: b :: c :: tail ∧ rest = tail ++ event :: after := by
  rcases pair_split split with first | ⟨rfl, same, _⟩ | ⟨tail, rfl, later⟩
  · exact .inl first
  · exact .inr (.inl ⟨rfl, same⟩)
  rcases cons_split later with ⟨rfl, same, rest⟩ | ⟨tail, rfl, last⟩
  · exact .inr (.inr (.inl ⟨rfl, same, rest⟩))
  · exact .inr (.inr (.inr ⟨tail, rfl, last⟩))

theorem Word.closing (word : Word maxIterations trace) (split : trace = before ++ (.runEnd, payload) :: after) :
    after = [] ∧ (payload.get "error_reason" = some maxIterationsExceeded → toolExecs before = maxIterations) := by
  cases word with
  | rejected rejects ends reason =>
    rcases opening_split split with ⟨_, other⟩ | ⟨_, other⟩ | ⟨_, same, rfl⟩ | ⟨tail, _, absurd⟩
    · cases other
    · cases other
    · cases same
      exact ⟨rfl, fun reserved => absurd reserved reason⟩
    · simp at absurd
  | accepted accepts iterations =>
    rcases opening_split split with ⟨_, other⟩ | ⟨_, other⟩ | ⟨_, other, _⟩ | ⟨tail, rfl, rest⟩
    · cases other
    · cases other
    · cases other
    · obtain ⟨last, counted⟩ := iterations.closing rest
      refine ⟨last, fun reserved => ?_⟩
      have count := counted reserved
      simp only [toolExecs, List.countP_cons] at count ⊢
      simp only [reduceCtorEq, decide_false, Bool.false_eq_true, ↓reduceIte]
      omega

theorem Word.answering (word : Word maxIterations trace) {call : Value}
    (split : trace = before ++ (.llmCall, call) :: after)
    (answers : ∃ decision, call.get "decision" = some decision ∧
      decision.get "type" = some (.string "final_answer")) :
    toolExecs before = 2 := by
  cases word with
  | rejected rejects ends reason =>
    rcases opening_split split with ⟨_, other⟩ | ⟨_, other⟩ | ⟨_, other, _⟩ | ⟨tail, _, absurd⟩
    · cases other
    · cases other
    · cases other
    · simp at absurd
  | accepted accepts iterations =>
    rcases opening_split split with ⟨_, other⟩ | ⟨_, other⟩ | ⟨_, other, _⟩ | ⟨tail, rfl, rest⟩
    · cases other
    · cases other
    · cases other
    · have count := iterations.answering rest answers
      simp only [toolExecs, List.countP_cons] at count ⊢
      simp only [reduceCtorEq, decide_false, Bool.false_eq_true, ↓reduceIte]
      omega

/-- Nothing is ever retried. -/
theorem Word.types (word : Word maxIterations trace) {event : EventType × Value} (member : event ∈ trace) :
    event.1 ≠ .retry := by
  cases word with
  | rejected rejects ends reason =>
    simp only [List.mem_cons, List.not_mem_nil, or_false] at member
    rcases member with rfl | rfl | rfl <;> simp
  | accepted accepts iterations =>
    simp only [List.mem_cons] at member
    rcases member with rfl | rfl | rfl | later
    · simp
    · simp
    · simp
    · have types := iterations.types later
      rintro same
      simp [same] at types

end Grammar

/-! ## From stages to words -/

namespace Stage

open Grammar

/-- How a run of an agent with this many iterations can be settled after these rounds. -/
inductive SettledBy (maxIterations : ℕ) (rounds : List Round) : Option LlmDecision → Verdict → Prop
  | exhausted (full : rounds.length = maxIterations) :
      SettledBy maxIterations rounds none (.failed "max_iterations_exceeded")
  | answered {answer : String} (room : rounds.length < maxIterations) (two : rounds.length = 2) :
      SettledBy maxIterations rounds (some .final) (.success answer)
  | rejected {decision : LlmDecision} {reason : String} (room : rounds.length < maxIterations)
      (fits : decision.Fits rounds.length) (called : ∃ toolId arguments, decision.kind = .toolCall toolId arguments)
      (given : reason ∈ rejectionReasons) : SettledBy maxIterations rounds (some decision) (.failed reason)

/-- The stages that a run of an agent with this many iterations stays in. -/
def Within (maxIterations : ℕ) : Stage → Prop
  | refused reason | refusalLogged reason | refusalEnded reason => reason ∈ capacityReasons
  | looping rounds => rounds.length ≤ maxIterations
  | calling rounds decision => rounds.length < maxIterations ∧ decision.Fits rounds.length
  | settled rounds decision verdict | ended rounds decision verdict => SettledBy maxIterations rounds decision verdict
  | _ => True

variable {maxIterations : ℕ}

private theorem fits_final {results : ℕ} (fits : LlmDecision.final.Fits results) : results = 2 := by
  generalize decided : LlmDecision.final = decision at fits
  cases fits with
  | final => rfl
  | forced toolId => cases decided
  | ordinary toolId few => cases decided

theorem Next.within {before after : Stage} (next : Next maxIterations before after)
    (within : before.Within maxIterations) : after.Within maxIterations := by
  cases next with
  | announce => trivial
  | refuse capacity => exact capacity
  | logRefusal => exact within
  | endRefusal => exact within
  | start => trivial
  | accept => trivial
  | enter => exact Nat.zero_le _
  | decide room fits => exact ⟨room, fits⟩
  | execute round =>
    have room := within.1
    simp only [Within, List.length_append, List.length_singleton]
    omega
  | answer given => exact .answered within.1 (fits_final within.2)
  | reject called given => exact .rejected within.1 within.2 called given
  | exhaust full => exact .exhausted full
  | close => exact within

theorem Reachable.within {stage : Stage} (reachable : stage.Reachable maxIterations) :
    stage.Within maxIterations := by
  induction reachable with
  | refl => trivial
  | tail _ next ih => exact next.within ih

/-! ### The rounds of a trace -/

private theorem calls_of_fits {decision : LlmDecision} {results : ℕ} (fits : decision.Fits results)
    (called : ∃ toolId arguments, decision.kind = .toolCall toolId arguments) :
    Calls (results + 1) "tool_call" (Payload.llmCall (results + 1) decision.tracePayload) := by
  refine ⟨rfl, decision.tracePayload, rfl, ?_⟩
  cases fits with
  | forced toolId => rfl
  | ordinary toolId few => rfl
  | final =>
    obtain ⟨toolId, arguments, absurd⟩ := called
    cases absurd

private theorem unreserved {reason : String} (other : reason ≠ "max_iterations_exceeded") :
    (Payload.runEndFailed reason).get "error_reason" ≠ some maxIterationsExceeded := by
  rintro ⟨⟩
  exact other rfl

private theorem exhausted_word : Iterations maxIterations (maxIterations + 1)
    [(.runEnd, Payload.runEndFailed "max_iterations_exceeded")] := .exhausted rfl rfl

private theorem failed_word {rounds : ℕ} {decision : LlmDecision} {reason : String} (room : rounds < maxIterations)
    (calls : Calls (rounds + 1) "tool_call" (Payload.llmCall (rounds + 1) decision.tracePayload))
    (given : reason ∈ rejectionReasons) : Iterations maxIterations (rounds + 1)
      [(.llmCall, Payload.llmCall (rounds + 1) decision.tracePayload), (.runEnd, Payload.runEndFailed reason)] := by
  refine .failed room calls rfl (unreserved ?_)
  rintro rfl
  revert given
  decide

private theorem answered_word {answer : String} (room : 2 < maxIterations) : Iterations maxIterations 3
    [(.llmCall, Payload.llmCall 3 LlmDecision.final.tracePayload), (.runEnd, Payload.runEndSuccess answer)] :=
  .answered room ⟨rfl, _, rfl, rfl⟩ rfl nofun

/-- The events of executed rounds are iterations. -/
private theorem iterations_roundEvents {before : ℕ} {rounds : List Round} {rest : List (EventType × Value)}
    (room : before + rounds.length ≤ maxIterations)
    (later : Iterations maxIterations (before + rounds.length + 1) rest) :
    Iterations maxIterations (before + 1) (roundEvents before rounds ++ rest) := by
  induction rounds generalizing before with
  | nil => exact later
  | cons round others ih =>
    simp only [List.length_cons] at room later
    refine .executed (by omega) ⟨rfl, _, rfl, rfl⟩ rfl rfl rfl (ih (by omega) ?_)
    rwa [show before + 1 + others.length + 1 = before + (others.length + 1) + 1 by omega]

private theorem word_of_loop {rounds : List Round} {rest : List (EventType × Value)}
    (room : rounds.length ≤ maxIterations) (later : Iterations maxIterations (rounds.length + 1) rest) :
    Word maxIterations (loopEvents rounds none ++ rest) := by
  have iterations : Iterations maxIterations (0 + 1) (roundEvents 0 rounds ++ rest) :=
    iterations_roundEvents (by omega) (by rwa [Nat.zero_add])
  have word : Word maxIterations ((.runCreated, Payload.runCreated) :: (.schedulerDecision, Payload.accepted) ::
      (.runStarted, Payload.runStarted) :: (roundEvents 0 rounds ++ rest)) := .accepted rfl iterations
  simpa [loopEvents, opening, admission, announcement, decisionEvents] using word

private theorem loopEvents_some (rounds : List Round) (decision : LlmDecision) :
    loopEvents rounds (some decision) =
      loopEvents rounds none ++ [(.llmCall, Payload.llmCall (rounds.length + 1) decision.tracePayload)] := by
  simp [loopEvents, decisionEvents]

/-- The closed traces of settled runs are words. -/
private theorem word_of_settled {rounds : List Round} {decision : Option LlmDecision} {verdict : Verdict}
    (settled : SettledBy maxIterations rounds decision verdict) :
    Word maxIterations (loopEvents rounds decision ++ [(.runEnd, verdict.payload)]) := by
  cases settled with
  | exhausted full =>
    rw [← full]
    exact word_of_loop le_rfl exhausted_word
  | answered room two =>
    rw [loopEvents_some, List.append_assoc]
    apply word_of_loop (by omega)
    rw [two]
    exact answered_word (by omega)
  | rejected room fits called given =>
    rw [loopEvents_some, List.append_assoc]
    exact word_of_loop (by omega) (failed_word room (calls_of_fits fits called) given)

/-- The trace of a running run can be completed. -/
private theorem exists_word_of_loop {rounds : List Round} (room : rounds.length ≤ maxIterations) :
    ∃ word, Word maxIterations word ∧ loopEvents rounds none <+: word := by
  rcases Nat.eq_or_lt_of_le room with rfl | more
  · exact ⟨_, word_of_loop le_rfl exhausted_word, List.prefix_append ..⟩
  · have calls : Calls (rounds.length + 1) "tool_call"
        (Payload.llmCall (rounds.length + 1) (LlmDecision.forced Uuid.nil).tracePayload) := ⟨rfl, _, rfl, rfl⟩
    have given : "tool_deleted" ∈ rejectionReasons := by decide
    exact ⟨_, word_of_loop room (failed_word more calls given), List.prefix_append ..⟩

/-- The trace of a run whose tool call or answer is still to come can be completed. -/
private theorem exists_word_of_calling {rounds : List Round} {decision : LlmDecision}
    (room : rounds.length < maxIterations) (fits : decision.Fits rounds.length) :
    ∃ word, Word maxIterations word ∧ loopEvents rounds (some decision) <+: word := by
  suffices settled : ∃ verdict, SettledBy maxIterations rounds (some decision) verdict by
    obtain ⟨verdict, settled⟩ := settled
    exact ⟨_, word_of_settled settled, List.prefix_append ..⟩
  generalize counted : rounds.length = results at fits
  cases fits with
  | forced toolId => exact ⟨_, .rejected room (counted ▸ .forced toolId) ⟨_, _, rfl⟩ (by decide : "tool_deleted" ∈ _)⟩
  | ordinary toolId few =>
    subst counted
    exact ⟨_, .rejected room (.ordinary toolId few) ⟨_, _, rfl⟩ (by decide : "tool_deleted" ∈ _)⟩
  | final => exact ⟨.success "", .answered room counted⟩

private theorem word_of_refusal {reason : String} (capacity : reason ∈ capacityReasons) :
    Word maxIterations [(.runCreated, Payload.runCreated), (.schedulerDecision, Payload.rejected reason),
      (.runEnd, Payload.runEndFailed reason)] := by
  refine .rejected rfl rfl (unreserved ?_)
  rintro rfl
  revert capacity
  decide

/-- The trace of a run in any stage is a prefix of a word. -/
theorem Within.prefix_word {stage : Stage} (within : stage.Within maxIterations) :
    ∃ word, Word maxIterations word ∧ stage.events <+: word := by
  -- before its first iteration a run can still be started
  have opened {events : List (EventType × Value)} (early : events <+: loopEvents [] none) :
      ∃ word, Word maxIterations word ∧ events <+: word := by
    have start : ([] : List Round).length ≤ maxIterations := Nat.zero_le _
    obtain ⟨word, complete, more⟩ := exists_word_of_loop start
    exact ⟨word, complete, early.trans more⟩
  cases stage with
  | created => exact opened List.nil_prefix
  | announced => exact opened ⟨_, rfl⟩
  | started => exact opened ⟨_, rfl⟩
  | admitted => exact opened ⟨_, rfl⟩
  | refused reason => exact ⟨_, word_of_refusal within, _, rfl⟩
  | refusalLogged reason => exact ⟨_, word_of_refusal within, _, rfl⟩
  | refusalEnded reason => exact ⟨_, word_of_refusal within, List.prefix_rfl⟩
  | looping rounds => exact exists_word_of_loop within
  | calling rounds decision => exact exists_word_of_calling within.1 within.2
  | settled rounds decision verdict => exact ⟨_, word_of_settled within, List.prefix_append ..⟩
  | ended rounds decision verdict => exact ⟨_, word_of_settled within, List.prefix_rfl⟩

end Stage

end AgentPlatform
