import AgentPlatform.Guarantees.Visibility
import AgentPlatform.Ownership.Surrounded

/-! # Requests for unknown ids

A request that names a row which its tenant does not have is refused as not found and changes
nothing, with one exception: the trace of an unknown run is answered with an empty list.
-/

set_option autoImplicit false

namespace AgentPlatform

open Interleaving Relational Database Scenario

variable {lib : Libraries} {config : Config}

/-- The tenant has the row that the request names. -/
def Store.Knows (s : Store) (tenantId : Uuid) : Request → Prop
  | .deleteTool _ toolId => ∃ tool ∈ s.tools, tool.tenantId = tenantId ∧ tool.id = toolId
  | .getAgent _ agentId | .startRun _ agentId _ => ∃ agent ∈ s.agents, agent.tenantId = tenantId ∧ agent.id = agentId
  | .getRun _ runId | .getTrace _ runId => ∃ run ∈ s.runs, run.tenantId = tenantId ∧ run.id = runId
  | _ => True

section Lookups

variable {s : Store} {tenantId id : Uuid}

theorem Store.findAgent_unknown (unknown : ¬ ∃ agent ∈ s.agents, agent.tenantId = tenantId ∧ agent.id = id) :
    s.findAgent tenantId id = none := by
  refine List.find?_eq_none.mpr fun agent present selected => unknown ?_
  simp only [Bool.and_eq_true, beq_iff_eq] at selected
  exact ⟨agent, present, selected.1⟩

theorem Store.findRun_unknown (unknown : ¬ ∃ run ∈ s.runs, run.tenantId = tenantId ∧ run.id = id) :
    s.findRun tenantId id = none := by
  refine List.find?_eq_none.mpr fun run present selected => unknown ?_
  simp only [Bool.and_eq_true, beq_iff_eq] at selected
  exact ⟨run, present, selected⟩

/-- Deleting an unknown tool affects no row. -/
theorem deleteTool_unknown {db : Database} {c : Choice}
    (unknown : ¬ ∃ tool ∈ db.store.tools, tool.tenantId = tenantId ∧ tool.id = id) :
    db.deleteTool c tenantId id = (.ok 0, db) := by
  have none_selected (tool : ToolRow) (present : tool ∈ db.store.tools) :
      ¬ (tool.tenantId == tenantId && tool.id == id && tool.deletedAt == none) = true := by
    intro selected
    simp only [Bool.and_eq_true, beq_iff_eq] at selected
    exact unknown ⟨tool, present, selected.1⟩
  have none_changed : (db.store.tools.map fun tool =>
      if (tool.tenantId == tenantId && tool.id == id && tool.deletedAt == none) = true then
        { tool with deletedAt := some c.now } else tool) = db.store.tools :=
    (List.map_congr_left fun tool present => if_neg (none_selected tool present)).trans (List.map_id _)
  simp only [deleteTool, List.countP_eq_zero.mpr none_selected, none_changed]

end Lookups

/-- Nobody creates the row that the request names, and no statement of the request fails. -/
def unknownTo (lib : Libraries) (config : Config) (tenantId : Uuid) (request : Request) :
    Surroundings (platform lib config) where
  sound _ := True
  rely _ s t := s.db.store.Evolves t.db.store ∧
    (¬ s.db.store.Knows tenantId request → ¬ t.db.store.Knows tenantId request)
  grants _ c _ := c.fail = false

/-- The committed rows stay as they are. -/
def KeepsStore (_ : Performed signature) (s t : World) : Prop := t.db.store = s.db.store

/-- The answer to a request for an unknown id. -/
def Unfound (request : Request) (result : Except AppError Response) : Prop :=
  ((∀ headers runId, request ≠ .getTrace headers runId) ∧ result = .error .notFound) ∨
    ∃ headers runId, request = .getTrace headers runId ∧ result ≠ .error .notFound

section Handlers

variable {headers : HeaderMap} {tenantId : Uuid} {request : Request} {w : World} {past : List (Performed signature)}

theorem ensures_unknown_onBehalf (unknown : ¬ w.db.store.Knows tenantId request) :
    (unknownTo lib config tenantId request).Ensures (fun _ => KeepsStore) (fun result _ _ => Unfound request result)
      (request.onBehalf lib ⟨tenantId⟩) w past := by
  have stable (op : Op) (s t : World) (others : (unknownTo lib config tenantId request).rely op s t) :
      ¬ s.db.store.Knows tenantId request → ¬ t.db.store.Knows tenantId request := others.2
  have broken {c : Choice} {P : Prop} (healthy : c.fail = false) (failing : c.fail = true) : P := by
    rw [healthy] at failing
    cases failing
  cases request with
  | deleteTool sent toolId =>
    apply ensures_sql unknown (stable _)
    intro t c answer db unknown known healthy ran
    have alive : ¬ c.fail = true := by rw [show c.fail = false from healthy]; decide
    simp only [execute, if_neg alive, Option.some.injEq] at ran
    rw [deleteTool_unknown unknown] at ran
    cases ran
    exact ⟨rfl, .inl ⟨by rintro _ _ ⟨⟩, rfl⟩⟩
  | getAgent sent agentId =>
    refine ensures_select unknown (stable _) (fun _ _ => rfl)
      (fun t c row unknown known _ healthy answered => ⟨rfl, ?_⟩)
      fun t c _ _ healthy failing => broken healthy failing
    rw [← (Option.some.inj answered : t.db.store.findAgent tenantId agentId = row), Store.findAgent_unknown unknown]
    exact .inl ⟨by rintro _ _ ⟨⟩, rfl⟩
  | startRun sent agentId body =>
    refine ensures_select unknown (stable _) (fun _ _ => rfl)
      (fun t c row unknown known _ healthy answered => ⟨rfl, ?_⟩)
      fun t c _ _ healthy failing => broken healthy failing
    rw [← (Option.some.inj answered : t.db.store.findAgent tenantId agentId = row), Store.findAgent_unknown unknown]
    exact .inl ⟨by rintro _ _ ⟨⟩, rfl⟩
  | getRun sent runId =>
    refine ensures_select unknown (stable _) (fun _ _ => rfl)
      (fun t c row unknown known _ healthy answered => ⟨rfl, ?_⟩)
      fun t c _ _ healthy failing => broken healthy failing
    rw [← (Option.some.inj answered : t.db.store.findRun tenantId runId = row), Store.findRun_unknown unknown]
    exact .inl ⟨by rintro _ _ ⟨⟩, rfl⟩
  | getTrace sent runId =>
    refine ensures_select unknown (stable _) (fun _ _ => rfl)
      (fun t c row unknown known _ healthy answered => ⟨rfl, ?_⟩)
      fun t c _ _ healthy failing => broken healthy failing
    exact .inr ⟨sent, runId, rfl, by rintro ⟨⟩⟩
  | _ => exact absurd True.intro unknown

theorem ensures_unknown (sent : request.headers? = some headers)
    (known : w.db.store.authenticates lib headers tenantId) (unknown : ¬ w.db.store.Knows tenantId request) :
    (unknownTo lib config tenantId request).Ensures (fun _ => KeepsStore) (fun result _ _ => Unfound request result)
      (request.handler lib) w past := by
  rw [Request.handler_eq sent]
  refine ensures_authenticate (P := fun w => w.db.store.authenticates lib headers tenantId ∧
    ¬ w.db.store.Knows tenantId request)
    ⟨known, unknown⟩ (fun _ s t others now => ⟨lasting_authenticates others.1 now.1, others.2 now.2⟩)
      (fun _ _ _ => rfl) ?_ ?_
  · rintro t later ⟨owner⟩ ⟨known, unknown⟩ same _
    obtain rfl := Store.authenticates_unique same known
    exact ensures_unknown_onBehalf unknown
  · rintro t later fault ⟨known, unknown⟩ refused _
    obtain ⟨_, _, healthy, failing⟩ := refused.failed known
    cases healthy.symm.trans failing

end Handlers

/-- A request that names a row which its tenant does not have is refused as not found and changes nothing,
unless it asks for a trace. -/
theorem unknown_unfound_iff {events more : List (Event (platform lib config))}
    {pool last : Pool (platform lib config)} {request : Request} {headers : HeaderMap} {tenantId : Uuid}
    {result : Except AppError Response} (path : Path (started lib config) events pool)
    (later : Path pool (.arrived (.http request) :: more) last) (sent : request.headers? = some headers)
    (known : pool.shared.db.store.authenticates lib headers tenantId)
    (unknown : ¬ pool.shared.db.store.Knows tenantId request)
    (others : OthersKeep pool.threads.length pool (.arrived (.http request) :: more)
      fun w => ¬ w.db.store.Knows tenantId request)
    (healthy : ∀ c what, .performed pool.threads.length c what ∈ more → c.fail = false)
    (returned : last.Returned pool.threads.length (.http request) result) :
    (result = .error .notFound ∧ EachStep pool.threads.length pool (.arrived (.http request) :: more)
      KeepsStore) ↔ ∀ headers runId, request ≠ .getTrace headers runId := by
  obtain ⟨next, arrives, rest, same, waiting⟩ := later.arrival
  have around : (unknownTo lib config tenantId request).Around pool.threads.length next more := by
    rintro before event after middle state rfl until_then step
    refine ⟨True.intro, ?_, fun _ _ _ _ _ other => ⟨?_, ?_⟩⟩
    · rintro c what rfl
      exact healthy c what (by simp)
    · exact evolves_of_started ((path.snoc arrives).append until_then) step
    · exact others.tail arrives before event after middle state rfl until_then step other
  have ensures := @ensures_unknown lib config headers tenantId request next.shared [] sent (same ▸ known)
      (same ▸ unknown)
  obtain ⟨_, _, _, _, _, _, _, unfound⟩ := ensures.returned rest around waiting returned
  constructor
  · rintro ⟨rfl, _⟩ headers runId rfl
    rcases unfound with ⟨other, _⟩ | ⟨_, _, _, absurd⟩
    · exact other _ _ rfl
    · exact absurd rfl
  · intro other
    rcases unfound with ⟨_, refused⟩ | ⟨_, _, same, _⟩
    · exact ⟨refused, (ensures.eachStep around waiting).cons arrives⟩
    · exact absurd same (other _ _)

namespace Scenario

theorem choice_fail (id : ℕ) : (choice id).fail = false := by
  unfold choice
  split <;> rfl

/-- Successive ids. -/
def choices (first count : ℕ) : List Choice := (List.range count).map fun k => choice (first + k)

theorem choices_healthy {first count : ℕ} {c : Choice} (member : c ∈ choices first count) : c.fail = false := by
  obtain ⟨k, _, rfl⟩ := List.mem_map.mp member
  exact choice_fail _

/-- The events of a thread that has served a request alone. -/
abbrev Served (i : ℕ) (more : List (Event (platform permissive ⟨1, 1⟩))) : Prop :=
  ∀ event ∈ more, ∃ c what, c.fail = false ∧ event = .performed i c what

/-- In this pool the request is served like this, if nobody else does anything. -/
def serves (request : Request) (first count : ℕ) (answer : Except AppError Response → Bool)
    (pool : Pool (platform permissive ⟨1, 1⟩)) : Bool :=
  (pool.replay? (.arrive (.http request) :: (choices first count).map (.act pool.threads.length))).any fun outcome =>
    (outcome.2.result? pool.threads.length).any answer

theorem of_serves {request : Request} {first count : ℕ} {answer : Except AppError Response → Bool}
    {pool : Pool (platform permissive ⟨1, 1⟩)} (served : serves request first count answer pool = true) :
    ∃ more last result, Path pool (.arrived (.http request) :: more) last ∧ Served pool.threads.length more ∧
      last.Returned pool.threads.length (.http request) result ∧ answer result = true := by
  obtain ⟨more, last, result, later, alone, returned, answered, _⟩ := pool.exists_alone (.http request) rfl
    (choices first count) (fun result _ _ => answer result) served
  refine ⟨more, last, result, later, fun event member => ?_, returned, answered⟩
  obtain ⟨c, made, what, rfl⟩ := alone event member
  exact ⟨c, what, choices_healthy made, rfl⟩

def unfound : Except AppError Response → Bool
  | .error .notFound => true
  | _ => false

def emptyTrace : Except AppError Response → Bool
  | .ok (.trace []) => true
  | _ => false

theorem of_unfound {result : Except AppError Response} (answered : unfound result = true) :
    result = .error .notFound := by
  unfold unfound at answered
  split at answered
  · rfl
  · cases answered

theorem of_emptyTrace {result : Except AppError Response} (answered : emptyTrace result = true) :
    result = .ok (.trace []) := by
  unfold emptyTrace at answered
  split at answered
  · rfl
  · cases answered

/-- A tenant without runs asks for one and for its trace. -/
theorem asked : ∃ events pool, Path (started permissive ⟨1, 1⟩) events pool ∧
    pool.shared.db.store.authenticates permissive headers 1 ∧ pool.shared.db.store.runs = [] ∧
    serves (.getRun headers 99) 60 2 unfound pool = true ∧
      serves (.getTrace headers 99) 60 2 emptyTrace pool = true := by
  obtain ⟨events, pool, path, checked⟩ := (started permissive ⟨1, 1⟩).exists_path onboarding
    (fun _ pool => identifies headers 1 pool.shared.db.store && pool.shared.db.store.runs.isEmpty &&
      (serves (.getRun headers 99) 60 2 unfound pool && serves (.getTrace headers 99) 60 2 emptyTrace pool))
    (by decide +kernel)
  simp only [Bool.and_eq_true, List.isEmpty_iff] at checked
  obtain ⟨⟨known, unused⟩, served⟩ := checked
  exact ⟨events, pool, path, of_identifies known, unused, served⟩

end Scenario

/-- A tenant asks for a run that it does not have. -/
theorem unknown_unfound_served : ∃ events pool more last, Path (started permissive ⟨1, 1⟩) events pool ∧
    Path pool (.arrived (.http (.getRun headers 99)) :: more) last ∧
    pool.shared.db.store.authenticates permissive headers 1 ∧
    ¬ pool.shared.db.store.Knows 1 (.getRun headers 99) ∧
    last.Returned pool.threads.length (.http (.getRun headers 99)) (.error .notFound) ∧
    EachStep pool.threads.length pool (.arrived (.http (.getRun headers 99)) :: more) KeepsStore := by
  obtain ⟨events, pool, path, known, unused, served, _⟩ := asked
  obtain ⟨more, last, result, later, alone, returned, _⟩ := of_serves served
  have unknown : ¬ pool.shared.db.store.Knows 1 (.getRun headers 99) := by
    rintro ⟨run, present, _⟩
    rw [unused] at present
    cases present
  have others : OthersKeep pool.threads.length pool (.arrived (.http (.getRun headers 99)) :: more)
      fun w => ¬ w.db.store.Knows 1 (.getRun headers 99) := by
    refine OthersKeep.of_alone (fun event member => ?_) _
    rcases List.mem_cons.mp member with rfl | member
    · exact .inr ⟨_, rfl⟩
    · obtain ⟨c, what, _, rfl⟩ := alone event member
      exact .inl ⟨c, what, rfl⟩
  have healthy (c : Choice) (what : Performed signature) (member : .performed pool.threads.length c what ∈ more) :
      c.fail = false := by
    obtain ⟨c', what', healthy, same⟩ := alone _ member
    cases same
    exact healthy
  obtain ⟨rfl, kept⟩ :=
    (unknown_unfound_iff path later rfl known unknown others healthy returned).mpr (by rintro _ _ ⟨⟩)
  exact ⟨events, pool, more, last, path, later, known, unknown, returned, kept⟩

/-- The trace of a run that does not exist is answered with an empty list, where the run itself is not found. -/
theorem unknown_trace_answered : ∃ events pool, Path (started permissive ⟨1, 1⟩) events pool ∧
    pool.shared.db.store.authenticates permissive headers 1 ∧
    ¬ pool.shared.db.store.Knows 1 (.getTrace headers 99) ∧
    (∃ more last, Path pool (.arrived (.http (.getTrace headers 99)) :: more) last ∧ Served pool.threads.length more ∧
      last.Returned pool.threads.length (.http (.getTrace headers 99)) (.ok (.trace []))) ∧
    ∃ more last, Path pool (.arrived (.http (.getRun headers 99)) :: more) last ∧ Served pool.threads.length more ∧
      last.Returned pool.threads.length (.http (.getRun headers 99)) (.error .notFound) := by
  obtain ⟨events, pool, path, known, unused, served, traced⟩ := asked
  refine ⟨events, pool, path, known, ?_, ?_, ?_⟩
  · rintro ⟨run, present, _⟩
    rw [unused] at present
    cases present
  · obtain ⟨more, last, result, later, alone, returned, answered⟩ := of_serves traced
    exact ⟨more, last, later, alone, of_emptyTrace answered ▸ returned⟩
  · obtain ⟨more, last, result, later, alone, returned, answered⟩ := of_serves served
    exact ⟨more, last, later, alone, of_unfound answered ▸ returned⟩

end AgentPlatform
