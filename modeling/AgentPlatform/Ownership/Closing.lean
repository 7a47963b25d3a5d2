import AgentPlatform.Ownership.Usage

/-! # Settled runs are closed

A handler or task that has given a run its terminal status owes the run its `run_end` event, and appends it
before it returns, unless one of its statements fails.
-/

set_option autoImplicit false

namespace AgentPlatform

open Interleaving

variable {lib : Libraries} {tenantId agentId runId : Uuid} {past more : List (Performed signature)}
  {what : Performed signature}

/-- The statement has given the run its terminal status. -/
inductive SettlesRun (tenantId runId : Uuid) : Performed signature → Prop
  | refused (reason : String) (count : ℕ) :
      SettlesRun tenantId runId ⟨.sql (.markRunFailed tenantId runId reason), .ok count⟩
  | ended (status : RunStatus) (finalAnswer errorReason : Option String) (count : ℕ) :
      SettlesRun tenantId runId ⟨.sql (.finalizeRun tenantId runId status finalAnswer errorReason), .ok count⟩

/-- The `run_end` event of the run was appended. -/
inductive EndsRun (tenantId runId : Uuid) : Performed signature → Prop
  | appended (payload : Value) : EndsRun tenantId runId ⟨.sql (.appendEvent tenantId runId .runEnd payload), .ok ()⟩

def Op.Settling : Op → Prop
  | .sql (.markRunFailed ..) | .sql (.finalizeRun ..) => True
  | _ => False

theorem SettlesRun.settling (settles : SettlesRun tenantId runId what) : what.op.Settling := by
  cases settles <;> trivial

/-- Unless a statement has failed, every run that was settled has its `run_end` event. -/
def Tidy (past : List (Performed signature)) : Prop :=
  past.any failed = false → ∀ tenantId runId, (∃ what ∈ past, SettlesRun tenantId runId what) →
    ∃ what ∈ past, EndsRun tenantId runId what

theorem Tidy.of_failed (broken : past.any failed = true) : Tidy past := by
  intro healthy
  cases broken.symm.trans healthy

theorem Tidy.start : Tidy [] := by
  rintro _ tenantId runId ⟨what, member, _⟩
  cases member

theorem Tidy.append (tidy : Tidy past) (closed : ∀ tenantId runId, ∀ what ∈ more, SettlesRun tenantId runId what →
    ∃ last ∈ more, EndsRun tenantId runId last) : Tidy (past ++ more) := by
  rintro healthy tenantId runId ⟨what, member, settles⟩
  rw [List.any_append, Bool.or_eq_false_iff] at healthy
  rcases List.mem_append.mp member with old | new
  · obtain ⟨last, there, ends⟩ := tidy healthy.1 tenantId runId ⟨what, old, settles⟩
    exact ⟨last, List.mem_append_left _ there, ends⟩
  · obtain ⟨last, there, ends⟩ := closed tenantId runId what new settles
    exact ⟨last, List.mem_append_right _ there, ends⟩

/-- From a tidy history on, the program returns with a tidy one. -/
def Tidies {α : Type} (program : Act α) : Prop :=
  ∀ past, Tidy past → program.Along (fun _ _ => True) (fun later _ => Tidy later) past

section Rules

variable {α β : Type}

theorem Tidies.of_uses {program : Act α} (uses : program.Uses fun op : Op => ¬ op.Settling) : Tidies program := by
  intro past tidy
  refine (Program.Along.of_uses uses fun _ _ _ => True.intro).mono ?_
  rintro later result ⟨more, rfl, quiet⟩
  exact tidy.append fun _ _ what member settles => absurd settles.settling (quiet what member)

theorem Tidies.done (result : Except AppError α) : Tidies (.done result) := fun _ tidy => tidy

theorem Tidies.handle {program : Act α} {rest : Except AppError α → Act β} (first : Tidies program)
    (later : ∀ result, Tidies (rest result)) : Tidies (program.handle rest) :=
  fun past tidy => Program.Along.handle _ (first past tidy) fun past result tidy => later result past tidy

theorem Tidies.bind {program : Act α} {rest : α → Act β} (first : Tidies program)
    (later : ∀ value, Tidies (rest value)) : Tidies (program >>= rest) := by
  apply Tidies.handle first
  rintro (fault | value)
  · exact .done _
  · exact later value

theorem Tidies.query {statement : Statement} (quiet : ¬ (Op.sql statement).Settling) : Tidies (query statement) :=
  .of_uses (uses_query quiet)

end Rules

/-! ## The task of a run -/

/-- A run is settled, and its `run_end` event is appended right after. -/
theorem tidies_settle {status : RunStatus} {finalAnswer errorReason : Option String} {payload : Value} : Tidies (do
    Db.finalizeRun tenantId runId status finalAnswer errorReason
    Trace.appendEvent tenantId runId .runEnd payload) := by
  intro past tidy
  refine ⟨True.intro, fun counted => ?_⟩
  cases counted with
  | error fault => exact .of_failed (by simp [failed])
  | ok count =>
    refine ⟨True.intro, fun appended => ?_⟩
    cases appended with
    | error fault => exact .of_failed (by simp [failed])
    | ok done =>
      rw [List.append_assoc]
      refine tidy.append fun owner run what member settles => ?_
      rcases List.mem_pair.mp member with rfl | rfl
      · cases settles
        exact ⟨_, List.mem_cons_of_mem _ (List.mem_singleton_self _), .appended payload⟩
      · cases settles

theorem tidies_failRun (reason : String) : Tidies (failRun tenantId runId reason) := tidies_settle

theorem tidies_mockLlmDecision {tools : List ToolRecord} {results : ℕ} {force : Bool} :
    Tidies (mockLlmDecision lib tenantId agentId tools results force) := by
  apply Tidies.of_uses
  refine Program.uses_ite ?_ (Program.uses_ite ?_ True.intro)
  · refine Program.uses_bind (Program.uses_bind (uses_query id) fun _ => True.intro) fun found => ?_
    cases found <;> trivial
  · exact Program.uses_bind (uses_okOr ..) fun _ => True.intro

theorem tidies_authorizeToolCall {toolId : Uuid} : Tidies (authorizeToolCall lib tenantId agentId toolId) := by
  apply Tidies.of_uses
  refine Program.uses_bind (Program.uses_bind (uses_query id) fun _ => True.intro) fun found => ?_
  refine Program.uses_bind (uses_okOr ..) fun tool => Program.uses_ite True.intro ?_
  exact Program.uses_bind (uses_query id) fun bound => Program.uses_ite True.intro True.intro

theorem tidies_agentLoop {agent : AgentRecord} {tools : List ToolRecord} {force : Bool} (remaining : ℕ)
    {iteration : Int} {results : ℕ} {consumed : Bool} :
    Tidies (agentLoop lib tenantId runId agent tools force remaining iteration results consumed) := by
  have fails (fault : AppError) : Tidies (do
      failRun tenantId runId (normalizeErrorReason fault)
      throw fault : Act Unit) := (tidies_failRun _).bind fun _ => .done _
  induction remaining generalizing iteration results consumed with
  | zero => exact tidies_failRun _
  | succ remaining ih =>
    apply tidies_mockLlmDecision.bind
    intro decision
    apply (Tidies.query id).bind
    intro _
    cases decision.kind with
    | finalAnswer answer => exact tidies_settle
    | toolCall toolId arguments =>
      apply (tidies_authorizeToolCall.handle fun result => .done (.ok result)).bind
      rintro (fault | tool)
      · exact fails fault
      dsimp only
      split
      · exact fails _
      · exact (Tidies.of_uses (uses_okOrError _)).bind fun result => (Tidies.query id).bind fun _ => ih

theorem tidies_executeRun : Tidies (executeRun lib tenantId runId) := by
  refine ((Tidies.query id).bind fun _ => .done _).bind fun begun => ?_
  split
  · apply (Tidies.query id).bind
    intro _
    apply (Tidies.query id).bind
    intro _
    apply ((Tidies.query id).bind fun _ => .done _).bind
    intro found
    apply (Tidies.of_uses (uses_okOr ..)).bind
    intro run
    apply ((Tidies.query id).bind fun _ => .done _).bind
    intro found
    apply (Tidies.of_uses (uses_okOr ..)).bind
    intro agent
    apply ((Tidies.query id).bind fun _ => .done _).bind
    intro boundTools
    exact (Tidies.of_uses (uses_okOr ..)).bind fun messages => tidies_agentLoop _
  · exact .done _

/-! ## Requests -/

theorem tidies_failRunBeforeStart {reason : String} {payload : Value} :
    Tidies (failRunBeforeStart tenantId runId reason payload) := by
  intro past tidy
  refine ⟨True.intro, fun counted => ?_⟩
  cases counted with
  | error fault => exact .of_failed (by simp [failed])
  | ok count =>
    refine ⟨True.intro, fun decided => ?_⟩
    cases decided with
    | error fault => exact .of_failed (by simp [failed])
    | ok done =>
      refine ⟨True.intro, fun appended => ?_⟩
      cases appended with
      | error fault => exact .of_failed (by simp [failed])
      | ok done =>
        rw [List.append_assoc, List.append_assoc]
        refine tidy.append fun owner run what member settles => ?_
        rcases List.mem_cons.mp member with rfl | later
        · cases settles
          refine ⟨_, ?_, .appended (Payload.runEndFailed reason)⟩
          simp
        · rcases List.mem_pair.mp later with rfl | rfl <;> cases settles

theorem tidies_scheduleRun : Tidies (scheduleRun tenantId runId) := by
  have refuse (reason : String) (payload : Value) (error : AppError) : Tidies (do
      failRunBeforeStart tenantId runId reason payload
      throw error : Act Unit) := tidies_failRunBeforeStart.bind fun _ => .done _
  have quiet {op : Op} (other : ¬ op.Settling) : Tidies (act op) := .of_uses (Program.uses_perform other)
  apply (quiet id).bind
  intro acquired
  split
  · apply Tidies.handle
    · apply (quiet id).bind
      intro semaphore
      apply (quiet id).bind
      intro acquired
      split
      · exact quiet id
      · exact refuse _ _ _
    · rintro (fault | done)
      · exact (quiet id).handle fun _ => .done _
      · exact .done _
  · exact refuse _ _ _

theorem Plain.not_settling {tenant : Option Uuid} {op : Op} (plain : Plain tenant op) : ¬ op.Settling := by
  cases op with
  | sql statement => cases statement <;> first | exact id | cases plain.1
  | _ => exact id

theorem Op.Inserts.not_settling {messages : Value} {key : Option String} {op : Op}
    (inserts : op.Inserts tenantId agentId messages key) : ¬ op.Settling := by
  cases op with
  | sql statement => cases statement <;> first | exact id | exact inserts.elim
  | _ => exact id

theorem Op.Builds.not_settling {op : Op} (builds : op.Builds tenantId) : ¬ op.Settling := by
  cases op with
  | sql statement => cases statement <;> first | exact id | exact builds.elim
  | _ => exact id

theorem tidies_onBehalf {request : Request} {headers : HeaderMap} (sent : request.headers? = some headers)
    (tenant : TenantContext) : Tidies (request.onBehalf lib tenant) := by
  have own {program : Act Response} (uses : program.Uses (Own tenant.tenantId)) : Tidies program :=
    .of_uses (uses.mono fun _ mine => mine.plain.not_settling)
  cases request with
  | createTenant body => cases sent
  | createApiKey owner => cases sent
  | createTool _ body => exact own (uses_createTool body)
  | listTools _ => exact own uses_listTools
  | deleteTool _ toolId => exact own (uses_deleteTool toolId)
  | createAgent _ body =>
    apply Tidies.of_uses
    refine Program.uses_ite True.intro
      (Program.uses_bind ((uses_dbCreateAgent ..).mono fun _ => Op.Builds.not_settling) ?_)
    exact fun agent => (uses_getAgentToolIds agent).mono fun _ mine => mine.plain.not_settling
  | getAgent _ agentId => exact own (uses_getAgent agentId)
  | startRun _ agentId body =>
    apply ((Tidies.query id).bind fun _ => .done _).bind
    intro found
    apply (Tidies.of_uses (uses_okOr ..)).bind
    intro agent
    split
    · exact .done _
    · apply (Tidies.of_uses ((uses_createOrGetRun ..).mono fun _ => Op.Inserts.not_settling)).bind
      rintro ⟨run, created⟩
      dsimp only
      split
      · exact ((Tidies.query id).bind fun _ => tidies_scheduleRun).bind fun _ => .done _
      · exact .done _
  | getRun _ runId =>
    apply Tidies.of_uses
    refine Program.uses_bind (Program.uses_bind (uses_query id) fun _ => True.intro) fun found => ?_
    exact Program.uses_bind (uses_okOr ..) fun _ => True.intro
  | getTrace _ runId =>
    apply Tidies.of_uses
    exact Program.uses_bind (Program.uses_bind (uses_query id) fun _ => True.intro) fun _ => True.intro

/-- Whatever a handler or task settles, it closes. -/
theorem tidies_body (task : Task) : Tidies (task.body lib) := by
  have authenticated {request : Request} {headers : HeaderMap} (sent : request.headers? = some headers) :
      Tidies (request.handler lib) := by
    rw [Request.handler_eq sent]
    exact (Tidies.of_uses (uses_authenticate fun _ => id)).bind fun tenant => tidies_onBehalf sent tenant
  cases task with
  | http request =>
    change Tidies (request.handler lib)
    cases request with
    | createTenant body => exact .of_uses ((uses_createTenant body).mono fun _ => Plain.not_settling)
    | createApiKey owner => exact .of_uses ((uses_createApiKey owner).mono fun _ => Plain.not_settling)
    | _ => exact authenticated rfl
  | executeRun tenantId runId =>
    refine (tidies_executeRun.handle fun result => Tidies.handle ?_ fun _ => .done _).bind fun _ => .done _
    exact (Tidies.of_uses (Program.uses_perform id)).bind fun _ => .of_uses (Program.uses_perform id)

end AgentPlatform
