import AgentPlatform.Guarantees.Progress
import AgentPlatform.Registry.Steps

/-! # The registry is linearizable

Requests about tools and agents overlap, and creating an agent takes many statements. Still their
responses are those of a single registry that serves one call after the other: each request is one call,
which takes effect between the arrival of the request and its response.
-/

set_option autoImplicit false

namespace AgentPlatform

open Interleaving Relational Database Registry Scenario

variable {lib : Libraries} {config : Config} {s : Store} {events : List (Event (platform lib config))}
  {pool : Pool (platform lib config)} {i : ℕ} {request : Request} {tenantId : Uuid}

/-! ## The calls of a thread -/

theorem calls_unrelated (unrelated : ∀ tenantId, request.call? tenantId = none) (past : List (Performed signature)) :
    request.calls past = [] := by
  induction past using List.reverseRec with
  | nil => rfl
  | append_singleton past what ih =>
    obtain ⟨op, answer⟩ := what
    have quiet : ¬ request.MayPoint op := by
      cases request with
      | createTenant body | createApiKey owner | startRun headers wanted body | getRun headers runId
      | getTrace headers runId => exact id
      | createTool headers body | listTools headers | deleteTool headers toolId | createAgent headers body
      | getAgent headers wanted =>
        cases unrelated Uuid.nil
    rw [Request.calls_snoc, ih, @Request.point_eq_none request past op answer quiet]
    rfl

theorem fine_of_path {thread : Thread (platform lib config)} (path : Path (booted lib config s) events pool)
    (present : pool.threads[i]? = some thread) (http : thread.task = .http request)
    (about : (request.call? tenantId).isSome) : request.Fine lib (doneBy (M := platform lib config) i events) := by
  rcases List.eq_nil_or_concat (doneBy (M := platform lib config) i events) with nothing | ⟨past, what, done⟩
  · exact .inl (by rw [nothing]; rfl)
  · rw [List.concat_eq_append] at done
    obtain ⟨before, c, after, rfl, earlier, _⟩ := exists_cut_of_doneBy done
    have along : (thread.task.body lib).Along (request.Careful lib) (request.Concluded lib) [] := by
      rw [http]
      exact careful_registry about
    have careful : request.Careful lib (doneBy (M := platform lib config) i before) what.op :=
      path.along_performed rfl present along
    rw [done, ← earlier]
    exact careful.fine what.answer

/-- A verified key authenticates its request from then on. -/
theorem authenticates_of_booted {headers : HeaderMap} (verified : Verified lib headers tenantId (doneBy i events))
    (left : Left lib s) (path : Path (booted lib config s) events pool) :
    pool.shared.db.store.authenticates lib headers tenantId := by
  obtain ⟨apiKey, keyPrefix, row, parsed, done, checked, owner⟩ := verified
  obtain ⟨before, after, middle, c, earlier, later, selected⟩ := selected_of_mem path done fun _ _ => rfl
  have found : middle.shared.db.store.findApiKey keyPrefix = some row := Option.some.inj selected
  exact lasting_authenticates.of_booted left earlier later ⟨apiKey, keyPrefix, row, parsed, found, checked, owner⟩

theorem Request.tenantId_of_call {call : Call} (asked : request.call? tenantId = some call) :
    call.tenantId = tenantId := by
  cases request <;> cases asked <;> rfl

/-! ## The history -/

/-- The response that a reply stands for. -/
def Registry.Reply.Answers (lib : Libraries) : Reply → Except AppError Response → Prop
  | .tool id entry, .ok (.tool response) => response = entry.response lib id
  | .tools entries, .ok (.tools response) => response = entries.map fun (id, entry) => entry.response lib id
  | .deleted, .ok .deleted => True
  | .agent id entry, .ok (.agent response) =>
      response = ⟨id, entry.name, entry.systemPrompt, response.toolIds, entry.maxIterations, entry.createdAt⟩ ∧
        (response.toolIds : Multiset Uuid) = entry.toolIds
  | .duplicateName, .error .duplicateName | .notFound, .error .notFound => True
  | _, _ => False

/-- What a request that has returned tells about its call. -/
inductive Corresponds (lib : Libraries) : List (Call × Reply) → Except AppError Response → Prop
  | reply {call : Call} {reply : Reply} {result : Except AppError Response} (answers : reply.Answers lib result) :
      Corresponds lib [(call, reply)] result
  | failed {fault : AppError} (named : fault ≠ .duplicateName) (known : fault ≠ .notFound) :
      Corresponds lib [] (.error fault)
  /-- The agent was created and its tools could not be read back. -/
  | unread {tenantId agentId : Uuid} {name : Option String} {systemPrompt : String} {toolIds : List Uuid}
      {maxIterations : Int} {agent : Registry.Agent} {error : SqlxError} :
      Corresponds lib [(.createAgent tenantId name systemPrompt toolIds maxIterations, .agent agentId agent)]
        (.error (.db error))

/-- The thread is a request, and this is the call that it makes for the tenant of its key. -/
def Asks (pool : Pool (platform lib config)) (i : ℕ) (call : Call) : Prop :=
  ∃ thread request headers, pool.threads[i]? = some thread ∧ thread.task = .http request ∧
    request.headers? = some headers ∧
    request.call? call.tenantId = some call ∧ pool.shared.db.store.authenticates lib headers call.tenantId

/-- The process did what a single registry does that serves these calls one after the other. -/
structure Explains (lib : Libraries) (config : Config) (s : Store) (events : List (Event (platform lib config)))
    (pool : Pool (platform lib config)) (history : List (ℕ × Call × Reply)) : Prop where
  runs : Registry.specification.Runs s.registry (history.map Prod.snd) pool.shared.db.store.registry
  asked : ∀ i, callsBy i history = [] ∨ ∃ call reply, callsBy i history = [(call, reply)] ∧ Asks pool i call
  answered : ∀ i request tenantId call result, request.call? tenantId = some call →
    pool.Returned i (.http request) result → Corresponds lib (callsBy i history) result
  order : ∀ before after middle i j task result, events = before ++ after → Path (booted lib config s) before middle →
    Path middle after pool → middle.Returned i task result → middle.threads.length ≤ j → Precedes i j history

section Answers

variable {past : List (Performed signature)} {id : Uuid} {toolIds : List Uuid}

/-- The tools that are read back are those of the agent that was the reply. -/
theorem toolIds_of_read {thread : Thread (platform lib config)} {entry : Registry.Agent} (left : Left lib s)
    (path : Path (booted lib config s) events pool) (present : pool.threads[i]? = some thread)
    (http : thread.task = .http request) (took : request.Took lib past tenantId (.agent id entry))
    (done : doneBy (M := platform lib config) i events = past ++
      [⟨.sql (.getAgentToolIds tenantId id), .ok toolIds⟩]) : (toolIds : Multiset Uuid) = entry.toolIds := by
  obtain ⟨before, c, after, rfl, earlier, _⟩ := exists_cut_of_doneBy done
  obtain ⟨middle, next, first, step, later⟩ := path.cut
  obtain ⟨mover, there, same⟩ := step.mover later present
  obtain ⟨history, linearization⟩ := first.linearization rfl (registry_linearizes left) (.executeRun 0 0)
  obtain ⟨call, asked, calls⟩ := took.asked
  have made : callsBy i history = [(call, .agent id entry)] := by
    rw [linearization.calls i mover there, same, http, earlier]
    exact calls
  have replied : (call, Reply.agent id entry) ∈ history.map Prod.snd :=
    mem_of_mem_callsBy (by rw [made]; exact List.mem_singleton_self _)
  have known := agent_of_replied linearization.runs replied
  rw [Request.tenantId_of_call asked] at known
  obtain ⟨row, _, _, _, rfl⟩ := (registry_agent_iff (valid_of_booted left first).wellFormed).mp known
  exact (boundTools_of_read (executed (execute_of_step step))).1

theorem corresponds_of_concluded {thread : Thread (platform lib config)} {result : Except AppError Response}
    (left : Left lib s) (path : Path (booted lib config s) events pool) (present : pool.threads[i]? = some thread)
    (http : thread.task = .http request) (concluded : request.Concluded lib (doneBy i events) result) :
    Corresponds lib (request.calls (doneBy i events)) result := by
  cases concluded with
  | @answered tenantId reply response took sent =>
    obtain ⟨call, _, calls⟩ := took.asked
    rw [calls]
    apply Corresponds.reply
    cases reply <;> cases response <;> try exact sent.elim
    · exact sent
    · exact sent
    · trivial
    · refine ⟨sent.1, ?_⟩
      rcases sent.2 with same | ⟨owner, before, took, done⟩
      · exact same
      · exact toolIds_of_read left path present http took done
  | duplicateName took =>
    obtain ⟨call, _, calls⟩ := took.asked
    rw [calls]
    exact .reply True.intro
  | notFound took =>
    obtain ⟨call, _, calls⟩ := took.asked
    rw [calls]
    exact .reply True.intro
  | failed quiet named known =>
    rw [quiet]
    exact .failed named known
  | unread creates took =>
    obtain ⟨call, asked, calls⟩ := took.asked
    obtain ⟨headers, body, rfl⟩ := creates
    cases asked
    rw [calls]
    exact .unread

end Answers

/-- Whatever the requests and the tasks of a process do at the same time, and whatever earlier processes left behind,
the responses about tools and agents are those of a single registry that serves the calls of the requests one
after the other. Every request makes at most one call, for the tenant of its key. A request that failed has made none,
except that an agent is created although its tools cannot be read back for the response. The call of a request
that has returned comes before the calls of the requests that arrive later. -/
theorem registry_linearizable (left : Left lib s) (path : Path (booted lib config s) events pool) :
    ∃ history, Explains lib config s events pool history := by
  obtain ⟨history, linearization⟩ := path.linearization rfl (registry_linearizes left) (.executeRun 0 0)
  refine ⟨history, linearization.runs, fun i => ?_, ?_, linearization.order⟩
  · rcases Nat.lt_or_ge i pool.threads.length with inside | outside
    · have present := List.getElem?_eq_getElem inside
      rw [linearization.calls i _ present]
      cases task : pool.threads[i].task with
      | executeRun owner runId =>
        left
        generalize doneBy i events = past
        induction past using List.reverseRec with
        | nil => rfl
        | append_singleton past what ih => rw [Implementation.calls_snoc, ih]; rfl
      | http request =>
        change request.calls _ = [] ∨ ∃ call reply, request.calls _ = _ ∧ _
        by_cases about : ∃ tenantId, (request.call? tenantId).isSome
        · obtain ⟨tenantId, about⟩ := about
          rcases fine_of_path path present task about with quiet | ⟨owner, reply, took⟩
          · exact .inl quiet
          · obtain ⟨headers, sent, verified⟩ := took.verified
            obtain ⟨call, asked, calls⟩ := took.asked
            obtain rfl := Request.tenantId_of_call asked
            exact .inr ⟨call, reply, calls, _, request, headers, present, task, sent, asked,
              authenticates_of_booted verified left path⟩
        · left
          apply calls_unrelated
          intro tenantId
          by_contra related
          exact about ⟨tenantId, Option.isSome_iff_ne_none.mpr related⟩
    · exact .inl (linearization.absent i outside)
  · rintro i request tenantId call result asked ⟨owned, present⟩
    rw [linearization.calls i _ present]
    have about : (request.call? tenantId).isSome = true := by rw [asked]; rfl
    have concluded : request.Concluded lib (doneBy (M := platform lib config) i events) result :=
      path.along rfl present (careful_registry about)
    exact corresponds_of_concluded left path present rfl concluded

/-- The service creates a tool and an agent, so some calls were made. -/
theorem registry_linearizable_service : ∃ events pool history, Path (booted permissive ⟨1, 1⟩ {}) events pool ∧
    history ≠ [] ∧ Explains permissive ⟨1, 1⟩ {} events pool history := by
  obtain ⟨events, pool, path, checked⟩ := (started permissive ⟨1, 1⟩).exists_path service
    (fun _ pool => (pool.shared.db.store.findAgent 1 22).isSome) (by decide +kernel)
  rw [started_eq_booted] at path
  obtain ⟨history, explains⟩ := registry_linearizable Left.empty path
  refine ⟨events, pool, history, path, ?_, explains⟩
  rintro rfl
  have unchanged : pool.shared.db.store.registry = Store.registry {} := explains.runs.eq_of_nil
  obtain ⟨agent, found⟩ := Option.isSome_iff_exists.mp checked
  have nobody := congrFun (congrFun (congrArg Registry.agents unchanged) 1) 22
  simp only [Store.registry, found] at nobody
  cases nobody

end AgentPlatform
