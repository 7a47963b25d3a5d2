import AgentPlatform.Model.Runtime
import AgentPlatform.Database.Evolution

/-! # The course of a run

What a run may go through, independent of who executes it: it is announced, refused or started,
and a started run goes through rounds of a decision and a tool call until it is settled. A stage
determines the status columns of the run and its events. Status and event are written one after
the other, so there is a stage between the two writes.
-/

set_option autoImplicit false

namespace AgentPlatform

open Relation

/-- One executed tool call. -/
structure Round where
  tool : ToolRecord
  result : Value

inductive Verdict
  | success (finalAnswer : String)
  | failed (errorReason : String)

inductive Stage
  | created
  | announced
  | refused (reason : String)
  | refusalLogged (reason : String)
  | refusalEnded (reason : String)
  | started
  | admitted
  | looping (rounds : List Round)
  | calling (rounds : List Round) (decision : LlmDecision)
  | settled (rounds : List Round) (decision : Option LlmDecision) (verdict : Verdict)
  | ended (rounds : List Round) (decision : Option LlmDecision) (verdict : Verdict)

namespace Verdict

def status : Verdict → RunStatus
  | success _ => .success
  | failed _ => .failed

def finalAnswer : Verdict → Option String
  | success answer => some answer
  | failed _ => none

def errorReason : Verdict → Option String
  | success _ => none
  | failed reason => some reason

/-- The payload of `run_end`. -/
def payload : Verdict → Value
  | success answer => Payload.runEndSuccess answer
  | failed reason => Payload.runEndFailed reason

end Verdict

/-- The reasons for which `schedule_run` refuses a run. -/
def capacityReasons : List String := ["scheduler_capacity_exceeded", "tenant_concurrency_limit_exceeded"]

/-- The reasons for which the agent loop rejects a tool call. -/
def rejectionReasons : List String :=
  ["tool_not_allowed_for_agent", "tool_deleted", "invalid input schema", "invalid_tool_arguments", "internal_error"]

/-- The decision the mock LLM takes after this many tool results. -/
inductive LlmDecision.Fits : LlmDecision → ℕ → Prop
  | forced (toolId : Uuid) : (LlmDecision.forced toolId).Fits 0
  | ordinary (toolId : Uuid) {results : ℕ} (few : results < 2) : (LlmDecision.ordinary toolId results).Fits results
  | final : LlmDecision.final.Fits 2

namespace Stage

def status : Stage → RunStatus
  | created | announced => .pending
  | refused _ | refusalLogged _ | refusalEnded _ => .failed
  | started | admitted | looping _ | calling .. => .running
  | settled _ _ verdict | ended _ _ verdict => verdict.status

def finalAnswer : Stage → Option String
  | settled _ _ verdict | ended _ _ verdict => verdict.finalAnswer
  | _ => none

def errorReason : Stage → Option String
  | refused reason | refusalLogged reason | refusalEnded reason => some reason
  | settled _ _ verdict | ended _ _ verdict => verdict.errorReason
  | _ => none

/-- `started_at` is set. -/
def hasStarted : Stage → Bool
  | created | announced | refused _ | refusalLogged _ | refusalEnded _ => false
  | _ => true

/-- `finished_at` is set. -/
def hasFinished (stage : Stage) : Bool := stage.status.terminal

/-! ## Events -/

/-- The events of the executed rounds, the first one after `before` tool results. -/
def roundEvents : (before : ℕ) → List Round → List (EventType × Value)
  | _, [] => []
  | before, round :: rest =>
      (.llmCall, Payload.llmCall (before + 1) (LlmDecision.ordinary round.tool.id before).tracePayload) ::
      (.toolExec, Payload.toolExec round.tool (iterationArguments before) round.result) ::
      roundEvents (before + 1) rest

def announcement : List (EventType × Value) := [(.runCreated, Payload.runCreated)]

def admission : List (EventType × Value) :=
  announcement ++ [(.schedulerDecision, Payload.accepted)]

def opening : List (EventType × Value) := admission ++ [(.runStarted, Payload.runStarted)]

def decisionEvents (rounds : List Round) (decision : Option LlmDecision) : List (EventType × Value) :=
  decision.toList.map fun decision => (.llmCall, Payload.llmCall (rounds.length + 1) decision.tracePayload)

/-- The trace of a run that has started its loop, up to its last decision. -/
def loopEvents (rounds : List Round) (decision : Option LlmDecision) : List (EventType × Value) :=
  opening ++ roundEvents 0 rounds ++ decisionEvents rounds decision

/-- The trace of the run. -/
def events : Stage → List (EventType × Value)
  | created => []
  | announced | refused _ | started => announcement
  | refusalLogged reason => announcement ++ [(.schedulerDecision, Payload.rejected reason)]
  | refusalEnded reason => announcement ++ [(.schedulerDecision, Payload.rejected reason)] ++
      [(.runEnd, Payload.runEndFailed reason)]
  | admitted => admission
  | looping rounds => loopEvents rounds none
  | calling rounds decision => loopEvents rounds (some decision)
  | settled rounds decision _ => loopEvents rounds decision
  | ended rounds decision verdict => loopEvents rounds decision ++ [(.runEnd, verdict.payload)]

/-- The executed tool calls. -/
def rounds : Stage → List Round
  | looping rounds | calling rounds _ | settled rounds _ _ | ended rounds _ _ => rounds
  | _ => []

/-! ## Transitions -/

/-- One step of a run of an agent with this many iterations. -/
inductive Next (maxIterations : ℕ) : Stage → Stage → Prop
  | announce : Next maxIterations created announced
  | refuse {reason : String} (capacity : reason ∈ capacityReasons) :
      Next maxIterations announced (refused reason)
  | logRefusal {reason : String} : Next maxIterations (refused reason) (refusalLogged reason)
  | endRefusal {reason : String} : Next maxIterations (refusalLogged reason) (refusalEnded reason)
  | start : Next maxIterations announced started
  | accept : Next maxIterations started admitted
  | enter : Next maxIterations admitted (looping [])
  | decide {rounds : List Round} {decision : LlmDecision} (room : rounds.length < maxIterations)
      (fits : decision.Fits rounds.length) : Next maxIterations (looping rounds) (calling rounds decision)
  | execute {rounds : List Round} (round : Round) :
      Next maxIterations (calling rounds (.ordinary round.tool.id rounds.length)) (looping (rounds ++ [round]))
  | answer {rounds : List Round} {answer : String} (given : LlmDecision.final.kind = .finalAnswer answer) :
      Next maxIterations (calling rounds .final) (settled rounds (some .final) (.success answer))
  | reject {rounds : List Round} {decision : LlmDecision} {reason : String}
      (called : ∃ toolId arguments, decision.kind = .toolCall toolId arguments) (given : reason ∈ rejectionReasons) :
      Next maxIterations (calling rounds decision) (settled rounds (some decision) (.failed reason))
  | exhaust {rounds : List Round} (full : rounds.length = maxIterations) :
      Next maxIterations (looping rounds) (settled rounds none (.failed "max_iterations_exceeded"))
  | close {rounds : List Round} {decision : Option LlmDecision} {verdict : Verdict} :
      Next maxIterations (settled rounds decision verdict) (ended rounds decision verdict)

/-- The stages that a run can be in. -/
def Reachable (maxIterations : ℕ) : Stage → Prop := ReflTransGen (Next maxIterations) created

theorem roundEvents_append (before : ℕ) (rounds : List Round) (round : Round) :
    roundEvents before (rounds ++ [round]) = roundEvents before rounds ++
      [(.llmCall, Payload.llmCall ((before + rounds.length : ℕ) + 1)
        (LlmDecision.ordinary round.tool.id (before + rounds.length)).tracePayload),
       (.toolExec, Payload.toolExec round.tool (iterationArguments (before + rounds.length)) round.result)] := by
  induction rounds generalizing before with
  | nil => simp [roundEvents]
  | cons first rest ih =>
    simp only [List.cons_append, roundEvents, ih (before + 1), List.length_cons]
    have shift : before + 1 + rest.length = before + (rest.length + 1) := by omega
    rw [shift]

/-! ## The last event and the rejection -/

theorem mem_roundEvents {before : ℕ} {rounds : List Round} {event : EventType × Value}
    (member : event ∈ roundEvents before rounds) : event.1 = .llmCall ∨ event.1 = .toolExec := by
  induction rounds generalizing before with
  | nil => simp [roundEvents] at member
  | cons round rest ih =>
    simp only [roundEvents, List.mem_cons] at member
    rcases member with rfl | rfl | later
    · exact .inl rfl
    · exact .inr rfl
    · exact ih later

theorem of_mem_loopEvents {rounds : List Round} {decision : Option LlmDecision} {event : EventType × Value}
    (member : event ∈ loopEvents rounds decision) :
    event = (.runCreated, Payload.runCreated) ∨ event = (.schedulerDecision, Payload.accepted) ∨
      event = (.runStarted, Payload.runStarted) ∨ event.1 = .llmCall ∨ event.1 = .toolExec := by
  simp only [loopEvents, List.mem_append, or_assoc] at member
  rcases member with first | round | last
  · simp only [opening, admission, announcement, List.cons_append, List.nil_append, List.mem_cons,
      List.not_mem_nil, or_false] at first
    rcases first with created | accepted | started
    · exact .inl created
    · exact .inr (.inl accepted)
    · exact .inr (.inr (.inl started))
  · exact .inr (.inr (.inr (mem_roundEvents round)))
  · obtain ⟨decision, _, rfl⟩ := List.mem_map.mp last
    exact .inr (.inr (.inr (.inl rfl)))

theorem runEnd_not_mem_loopEvents {rounds : List Round} {decision : Option LlmDecision} {payload : Value} :
    (.runEnd, payload) ∉ loopEvents rounds decision :=
  fun member => by simpa using of_mem_loopEvents member

theorem rejected_not_mem_loopEvents {rounds : List Round} {decision : Option LlmDecision} {reason : String} :
    (.schedulerDecision, Payload.rejected reason) ∉ loopEvents rounds decision :=
  fun member => by simpa [Payload.rejected, Payload.accepted] using of_mem_loopEvents member

/-- A closing event says what the columns of the run say. -/
theorem of_mem_runEnd {stage : Stage} {payload : Value} (member : (.runEnd, payload) ∈ stage.events) :
    (∃ answer, stage.status = .success ∧ stage.finalAnswer = some answer ∧
      payload = Payload.runEndSuccess answer) ∨
    (∃ reason, stage.status = .failed ∧ stage.errorReason = some reason ∧
      payload = Payload.runEndFailed reason) := by
  cases stage with
  | refusalEnded reason =>
    refine .inr ⟨reason, rfl, rfl, ?_⟩
    simpa [events, announcement] using member
  | ended rounds decision verdict =>
    simp only [events, List.mem_append, runEnd_not_mem_loopEvents, false_or, List.mem_singleton,
      Prod.mk.injEq, true_and] at member
    cases verdict with
    | success answer => exact .inl ⟨answer, rfl, rfl, member⟩
    | failed reason => exact .inr ⟨reason, rfl, rfl, member⟩
  | looping rounds => exact absurd member runEnd_not_mem_loopEvents
  | calling rounds decision => exact absurd member runEnd_not_mem_loopEvents
  | settled rounds decision verdict => exact absurd member runEnd_not_mem_loopEvents
  | _ => simp [events, announcement, admission] at member

/-- A rejecting decision of the scheduler names the reason of the failed run. -/
theorem of_mem_rejected {stage : Stage} {reason : String}
    (member : (.schedulerDecision, Payload.rejected reason) ∈ stage.events) :
    stage.status = .failed ∧ stage.errorReason = some reason := by
  cases stage with
  | refusalLogged given =>
    obtain rfl : reason = given := by simpa [events, announcement, Payload.rejected] using member
    exact ⟨rfl, rfl⟩
  | refusalEnded given =>
    obtain rfl : reason = given := by simpa [events, announcement, Payload.rejected] using member
    exact ⟨rfl, rfl⟩
  | ended rounds decision verdict =>
    simp [events, rejected_not_mem_loopEvents] at member
  | looping rounds => exact absurd member rejected_not_mem_loopEvents
  | calling rounds decision => exact absurd member rejected_not_mem_loopEvents
  | settled rounds decision verdict => exact absurd member rejected_not_mem_loopEvents
  | _ => simp [events, announcement, admission, Payload.rejected, Payload.accepted] at member

end Stage

end AgentPlatform
