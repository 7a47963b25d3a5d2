import AgentPlatform.Guarantees.Unknown
import AgentPlatform.Ownership.Creation

/-! # Creating an agent is all or nothing

A refused request leaves the agents and their tools as they are, and a successful one adds exactly
one agent with its bindings, in one step. The exception is the read of the tool ids that follows the
commit: when it fails, the request is answered with an error although the agent exists.
-/

set_option autoImplicit false

namespace AgentPlatform

open Interleaving Relational Database Scenario

variable {lib : Libraries} {config : Config}

/-- The agents and their bindings stay as they are. -/
def KeepsAgents (_ : Performed signature) (s t : World) : Prop :=
  t.db.store.agents = s.db.store.agents ∧ t.db.store.agentTools = s.db.store.agentTools

/-- The thread found the tool active when it checked it. -/
def FoundActive (i : ℕ) (first : Pool (platform lib config)) (events : List (Event (platform lib config)))
    (tenantId toolId : Uuid) : Prop :=
  ∃ before c tx after middle,
    events = before ++ .performed i c ⟨.sql (.toolExists tx tenantId toolId), .ok true⟩ :: after ∧
    Path first before middle ∧ ActiveTool middle.shared.db.store tenantId toolId

/-- One step of the thread adds the agent of the request with its bindings, and the others change nothing. -/
def AddsAgent (headers : HeaderMap) (body : CreateAgentRequest) (i : ℕ) (first : Pool (platform lib config))
    (events : List (Event (platform lib config))) : Prop :=
  ∃ before c what after middle next tenantId agent, events = before ++ .performed i c what :: after ∧
    Path first before middle ∧ Step middle (.performed i c what) next ∧
    EachStep i first before KeepsStore ∧ EachStep i next after KeepsStore ∧
    middle.shared.db.store.authenticates lib headers tenantId ∧ agent.Of tenantId body ∧
    next.shared.db.store = middle.shared.db.store.WithAgent agent body.toolIds ∧ body.toolIds.Nodup ∧
    ∀ toolId ∈ body.toolIds, FoundActive i first before tenantId toolId

/-- The request has either created its agent or changed nothing. -/
def AllOrNothing (headers : HeaderMap) (body : CreateAgentRequest) (i : ℕ) (first : Pool (platform lib config))
    (events : List (Event (platform lib config))) : Except AppError Response → Prop
  | .error _ => EachStep i first events KeepsAgents
  | .ok _ => AddsAgent headers body i first events

section Steps

variable {i : ℕ} {first last : Pool (platform lib config)} {headers : HeaderMap} {body : CreateAgentRequest}
  {before after events : List (Event (platform lib config))} {past : List (Performed signature)}

/-- Each step of the thread is as the creation of an agent allows it. -/
def EachCreates (headers : HeaderMap) (body : CreateAgentRequest) (i : ℕ) (first : Pool (platform lib config))
    (events : List (Event (platform lib config))) : Prop :=
  ∀ before c what after middle next, events = before ++ .performed i c what :: after → Path first before middle →
    Step middle (.performed i c what) next →
    Creates lib headers body (doneBy (M := platform lib config) i before) what middle.shared next.shared

theorem EachCreates.init (creates : EachCreates headers body i first (before ++ after)) :
    EachCreates headers body i first before := by
  rintro start c what rest middle next rfl
  exact creates start c what (rest ++ after) middle next (by simp)

/-- As long as the thread does not commit it changes nothing. -/
theorem EachCreates.keeps (before : List (Event (platform lib config))) {middle : Pool (platform lib config)}
    (creates : EachCreates headers body i first (before ++ after)) (path : Path first before middle)
    (uncommitted : (doneBy (M := platform lib config) i after).any committed = false) :
    EachStep i middle after KeepsStore := by
  rintro start c what rest state next rfl later step
  apply (creates (before ++ start) c what rest state next (by simp) (path.append later) step).quiet
  rw [doneBy_append, doneBy_cons_self, List.any_append, List.any_cons] at uncommitted
  simp only [Bool.or_eq_false_iff] at uncommitted
  exact uncommitted.2.1

/-- The read of the tool ids only fails when the environment makes it fail. -/
theorem failing_of_unread {middle next : Pool (platform lib config)} {c : Choice} {tenantId agentId : Uuid}
    {error : SqlxError}
    (step : Step middle (.performed i c ⟨.sql (.getAgentToolIds tenantId agentId), .error error⟩) next) :
    c.fail = true := by
  by_contra healthy
  have ran := execute_of_step step
  rw [execute_select (by simpa using healthy) rfl] at ran
  cases ran

theorem healthy_of_read {middle next : Pool (platform lib config)} {c : Choice} {tenantId agentId : Uuid}
    {toolIds : List Uuid}
    (step : Step middle (.performed i c ⟨.sql (.getAgentToolIds tenantId agentId), .ok toolIds⟩) next) :
    c.fail = false := by
  by_contra failing
  have ran := execute_of_step step
  rw [execute_failing (by simpa using failing)] at ran
  cases ran

/-- What `create_agent` checked was so when it checked it. -/
theorem foundActive_of_checked {tenantId tx toolId : Uuid} (path : Path first events last)
    (checked : ⟨.sql (.toolExists tx tenantId toolId), .ok true⟩ ∈ doneBy (M := platform lib config) i events) :
    FoundActive i first events tenantId toolId := by
  obtain ⟨c, member⟩ := mem_doneBy.mp checked
  obtain ⟨before, after, rfl⟩ := List.append_of_mem member
  obtain ⟨middle, next, earlier, step, _⟩ := path.cut
  refine ⟨before, c, tx, after, middle, rfl, earlier, ?_⟩
  have ran := executed (execute_of_step step)
  generalize next.shared.db = db at ran
  generalize same : Except.ok true = answer at ran
  cases ran with
  | toolExists found alive =>
    have present := Except.ok.inj same.symm
    simpa [ActiveTool, and_assoc] using present
  | unavailable failing => cases same
  | select healthy answered => cases answered
  | noTransaction inside absent => cases same
  | inFailed inside found aborted => cases same
  | violated outside healthy => cases same
  | violatedWithin inside found alive healthy => cases same

end Steps

/-- What the thread of a request to create an agent has done. -/
theorem handled_of_returned {events more : List (Event (platform lib config))}
    {pool last : Pool (platform lib config)} {headers : HeaderMap} {body : CreateAgentRequest}
    {result : Except AppError Response} (path : Path (started lib config) events pool)
    (later : Path pool (.arrived (.http (.createAgent headers body)) :: more) last)
    (returned : last.Returned pool.threads.length (.http (.createAgent headers body)) result) :
    ∃ next w, Step pool (.arrived (.http (.createAgent headers body))) next ∧ Path next more last ∧
      EachCreates headers body pool.threads.length next more ∧
      Handled (among lib config (fun _ => True) fun _ _ _ => True) (fun _ => True) headers body result w
        (doneBy (M := platform lib config) pool.threads.length more) := by
  obtain ⟨next, arrives, rest, _, waiting⟩ := later.arrival
  have around : (among lib config (fun _ => True) fun _ _ _ => True).Around pool.threads.length next more :=
    around_of_started (path.snoc arrives) (fun _ _ _ _ _ _ _ _ _ _ => True.intro) fun _ _ _ _ _ _ _ _ _ => True.intro
  have ensures := @ensures_create lib config (fun _ => True) (fun _ _ _ => True) headers body next.shared True.intro
  obtain ⟨before, after, middle, rfl, _, _, quiet, handled⟩ := ensures.returned rest around waiting returned
  refine ⟨next, middle.shared, arrives, rest, ?_, ?_⟩
  · rintro start c what tail state after' same first step
    exact ensures.lawful (same ▸ around) first step waiting
  · rw [doneBy_append, quiet, List.append_nil]
    exact handled

/-- The step that commits the agent. -/
theorem exists_commit {events : List (Event (platform lib config))} {i : ℕ} {first last : Pool (platform lib config)}
    {headers : HeaderMap} {body : CreateAgentRequest} {tenantId tx : Uuid} {agent : AgentRow} {Q : Store → Prop}
    {past later : List (Performed signature)} (path : Path first events last)
    (creates : EachCreates headers body i first events) (progress : Progress Q tenantId body agent body.toolIds past)
    (done : doneBy (M := platform lib config) i events = past ++ ⟨.sql (.commit tx), .ok ()⟩ :: later) :
    ∃ before c after middle next, events = before ++ .performed i c ⟨.sql (.commit tx), .ok ()⟩ :: after ∧
      doneBy (M := platform lib config) i before = past ∧ doneBy (M := platform lib config) i after = later ∧
      Path first before middle ∧ Step middle (.performed i c ⟨.sql (.commit tx), .ok ()⟩) next ∧
      middle.shared.db.store.authenticates lib headers tenantId ∧
      next.shared.db.store = middle.shared.db.store.WithAgent agent body.toolIds := by
  obtain ⟨before, c, after, rfl, earlier, rest⟩ := exists_cut_of_doneBy done
  obtain ⟨middle, next, first_part, step, _⟩ := path.cut
  obtain ⟨owner, agent', admitted, asked, inserted, added⟩ :=
    (creates before c _ after middle next rfl first_part step).commits rfl
  rw [earlier, progress.inserted] at inserted
  cases inserted
  rw [← asked.tenantId, progress.asked.tenantId] at admitted
  exact ⟨before, c, after, middle, next, rfl, earlier, rest, first_part, step, admitted, added⟩

/-- A request to create an agent does all of it or nothing, exactly if the read of the tool ids after the commit does
not fail. -/
theorem creation_all_or_nothing_iff {events more : List (Event (platform lib config))}
    {pool last : Pool (platform lib config)} {headers : HeaderMap} {body : CreateAgentRequest}
    {result : Except AppError Response} (path : Path (started lib config) events pool)
    (later : Path pool (.arrived (.http (.createAgent headers body)) :: more) last)
    (returned : last.Returned pool.threads.length (.http (.createAgent headers body)) result) :
    AllOrNothing headers body pool.threads.length pool (.arrived (.http (.createAgent headers body)) :: more) result ↔
      ∀ c what, .performed pool.threads.length c what ∈ more → readsToolIds what = true → c.fail = false := by
  obtain ⟨next, w, arrives, rest, creates, handled⟩ := handled_of_returned path later returned
  have nothing (fault : AppError) (quiet : Quiet (doneBy (M := platform lib config) pool.threads.length more)) :
      AllOrNothing headers body pool.threads.length pool (.arrived (.http (.createAgent headers body)) :: more)
        (.error fault) ↔
        ∀ c what, .performed pool.threads.length c what ∈ more → readsToolIds what = true → c.fail = false := by
    refine ⟨fun _ c what member reads => ?_, fun _ => ?_⟩
    · have unread := List.any_eq_false.mp quiet.unread what (mem_doneBy.mpr ⟨c, member⟩)
      exact absurd reads unread
    · refine EachStep.cons arrives fun before c what after middle last same path step => ?_
      have kept :=
          (EachCreates.keeps [] creates (.nil next) quiet.uncommitted) before c what after middle last same path step
      exact ⟨congrArg Store.agents kept, congrArg Store.agentTools kept⟩
  generalize done : doneBy (M := platform lib config) pool.threads.length more = past at handled nothing
  cases handled with
  | unauthenticated known refused quiet => exact nothing _ quiet
  | declined known admitted declined quiet => exact nothing _ quiet
  | @unread _ past tenantId tx agent error progress possible =>
    rw [List.append_assoc] at done
    obtain ⟨before, c, after, middle, state, rfl, _, remaining, earlier, step, _, added⟩ :=
      exists_commit rest creates progress done
    constructor
    · intro keeps
      have kept := (keeps (_ :: before) c _ after middle state rfl ((Path.single arrives).append earlier) step).1
      rw [added] at kept
      simp [Store.WithAgent] at kept
    · intro healthy
      have read : ⟨.sql (.getAgentToolIds tenantId agent.id), .error error⟩ ∈ doneBy
          (M := platform lib config) pool.threads.length _ :=
        done.symm ▸ List.mem_append_right past (List.mem_cons_of_mem _ (List.mem_singleton_self _))
      obtain ⟨c', member⟩ := mem_doneBy.mp read
      obtain ⟨_, _, reads⟩ := rest.step_of_mem member
      have failing := failing_of_unread reads
      rw [healthy c' _ member rfl] at failing
      cases failing
  | @created _ past tenantId tx agent toolIds progress =>
    rw [List.append_assoc] at done
    obtain ⟨before, c, after, middle, state, rfl, earlier_done, remaining, earlier, step, admitted, added⟩ :=
      exists_commit rest creates progress done
    refine ⟨fun _ c' what member reads => ?_, fun _ => ?_⟩
    · obtain ⟨_, _, performs⟩ := rest.step_of_mem member
      have happened : what ∈ past ++
          ([⟨.sql (.commit tx), .ok ()⟩] ++ [⟨.sql (.getAgentToolIds tenantId agent.id), .ok toolIds⟩]) :=
        done ▸ mem_doneBy.mpr ⟨c', member⟩
      rcases List.mem_append.mp happened with old | new
      · exact absurd reads (List.any_eq_false.mp progress.quiet.unread what old)
      · rcases List.mem_cons.mp new with rfl | new
        · cases reads
        · obtain rfl := List.mem_singleton.mp new
          exact healthy_of_read performs
    · refine ⟨_ :: before, c, _, after, middle, state, tenantId, agent, rfl, (Path.single arrives).append earlier,
        step,
        EachStep.cons arrives ?_, ?_, admitted, progress.asked, added,
          progress.passed.distinct, fun toolId member => ?_⟩
      · exact EachCreates.keeps [] creates.init (.nil next) (earlier_done ▸ progress.quiet.uncommitted)
      · rw [List.append_cons] at creates
        apply EachCreates.keeps _ creates (earlier.snoc step)
        rw [remaining]
        rfl
      · obtain ⟨tx', checked⟩ := progress.checked toolId member
        exact foundActive_of_checked ((Path.single arrives).append earlier) (earlier_done ▸ checked)

namespace Scenario

def wanted : CreateAgentRequest := ⟨none, "Answer.", [11], 5⟩

def isAgent : Except AppError Response → Bool
  | .ok (.agent _) => true
  | _ => false

def isUnavailable : Except AppError Response → Bool
  | .error (.db .unavailable) => true
  | _ => false

theorem of_isUnavailable {result : Except AppError Response} (answered : isUnavailable result = true) :
    result = .error (.db .unavailable) := by
  unfold isUnavailable at answered
  split at answered
  · rfl
  · cases answered

/-- How many statements fail. -/
def failures (events : List (Event (platform permissive ⟨1, 1⟩))) : ℕ :=
  events.countP fun
    | .arrived _ => false
    | .performed _ c _ => c.fail

/-- The read of the tool ids does not fail. -/
def readHealthy (events : List (Event (platform permissive ⟨1, 1⟩))) : Bool :=
  events.all fun
    | .arrived _ => true
    | .performed _ c what => !readsToolIds what || !c.fail

theorem of_readHealthy {events : List (Event (platform permissive ⟨1, 1⟩))} (checked : readHealthy events = true)
    {i : ℕ} {c : Choice} {what : Performed signature} (member : .performed i c what ∈ events)
    (reads : readsToolIds what = true) : c.fail = false := by
  have fine := List.all_eq_true.mp checked _ member
  simpa [reads] using fine

/-- An agent with two tools. -/
def wantedBoth : CreateAgentRequest := ⟨none, "Answer.", [11, 16], 5⟩

/-- The seven operations of a request with one tool, of which the last one may fail. -/
def creationChoices (failing : Bool) : List Choice := choices 20 6 ++ [{ choice 26 with fail := failing }]

/-- The `INSERT` of the second binding fails, and the transaction is rolled back. -/
def brokenChoices : List Choice := choices 20 6 ++ [{ choice 26 with fail := true }, choice 27]

/-- This is so when the request has been served alone. -/
def creation (body : CreateAgentRequest) (choices : List Choice) (check : Except AppError Response →
    List (Event (platform permissive ⟨1, 1⟩)) → Pool (platform permissive ⟨1, 1⟩) → Bool)
    (pool : Pool (platform permissive ⟨1, 1⟩)) : Bool :=
  (pool.replay? (.arrive (.http (.createAgent headers body)) :: choices.map (.act pool.threads.length))).any
    fun outcome => (outcome.2.result? pool.threads.length).any fun result => check result outcome.1.tail outcome.2

/-- The tenant has two tools and no agents. -/
def equipment : List (Label (platform permissive ⟨1, 1⟩)) :=
  onboarding ++ [arrive (.createTool headers staticTool)] ++ moves 2 10 2 ++
  [arrive (.createTool headers { staticTool with name := "translate" })] ++ moves 3 15 2

end Scenario

/-- An agent with two tools is created, and another request for it fails in its second round. -/
theorem creation_all_or_nothing_served : ∃ events pool, Path (started permissive ⟨1, 1⟩) events pool ∧
    (∃ more last result, Path pool (.arrived (.http (.createAgent headers wantedBoth)) :: more) last ∧
      failures more = 0 ∧
      last.Returned pool.threads.length (.http (.createAgent headers wantedBoth)) result ∧ isAgent result = true ∧
      AllOrNothing headers wantedBoth pool.threads.length pool
        (.arrived (.http (.createAgent headers wantedBoth)) :: more) result) ∧
    ∃ more last, Path pool (.arrived (.http (.createAgent headers wantedBoth)) :: more) last ∧ failures more = 1 ∧
      last.Returned pool.threads.length (.http (.createAgent headers wantedBoth)) (.error (.db .unavailable)) ∧
      AllOrNothing headers wantedBoth pool.threads.length pool
        (.arrived (.http (.createAgent headers wantedBoth)) :: more) (.error (.db .unavailable)) := by
  obtain ⟨events, pool, path, checked⟩ := (started permissive ⟨1, 1⟩).exists_path equipment
    (fun _ pool => creation wantedBoth (choices 20 9) (fun result more _ => isAgent result && failures more == 0 &&
      readHealthy more) pool &&
      creation wantedBoth brokenChoices (fun result more _ => isUnavailable result &&
        failures more == 1 && readHealthy more) pool)
    (by decide +kernel)
  obtain ⟨served, broken⟩ := Bool.and_eq_true_iff.mp checked
  refine ⟨events, pool, path, ?_, ?_⟩
  · obtain ⟨more, last, result, later, _, returned, shown, _⟩ :=
      pool.exists_alone (.http (.createAgent headers wantedBoth)) rfl (choices 20 9)
      (fun result more _ => isAgent result && failures more == 0 && readHealthy more) served
    simp only [Bool.and_eq_true, beq_iff_eq] at shown
    obtain ⟨⟨created, none_failed⟩, healthy⟩ := shown
    exact ⟨more, last, result, later, none_failed, returned, created,
      (creation_all_or_nothing_iff path later returned).mpr fun c what => of_readHealthy healthy⟩
  · obtain ⟨more, last, result, later, _, returned, shown, _⟩ :=
      pool.exists_alone (.http (.createAgent headers wantedBoth)) rfl
      brokenChoices (fun result more _ => isUnavailable result && failures more == 1 && readHealthy more) broken
    simp only [Bool.and_eq_true, beq_iff_eq] at shown
    obtain ⟨⟨refused, one_failed⟩, healthy⟩ := shown
    obtain rfl := of_isUnavailable refused
    exact ⟨more, last, later, one_failed, returned,
      (creation_all_or_nothing_iff path later returned).mpr fun c what => of_readHealthy healthy⟩

/-- Only the read after the commit fails: the request is answered with an error, and the agent is there. -/
theorem creation_unread_kept : ∃ events pool, Path (started permissive ⟨1, 1⟩) events pool ∧
    pool.shared.db.store.agents = [] ∧
      ∃ more last, Path pool (.arrived (.http (.createAgent headers wanted)) :: more) last ∧
      failures more = 1 ∧ (∀ event ∈ more, event.IsBy pool.threads.length) ∧
      last.Returned pool.threads.length (.http (.createAgent headers wanted)) (.error (.db .unavailable)) ∧
      last.shared.db.store.agents ≠ [] := by
  obtain ⟨events, pool, path, checked⟩ := (started permissive ⟨1, 1⟩).exists_path
    (onboarding ++ [arrive (.createTool headers staticTool)] ++ moves 2 10 2)
    (fun _ pool => pool.shared.db.store.agents.isEmpty &&
        creation wanted (creationChoices true) (fun result more last =>
      isUnavailable result && failures more == 1 && last.shared.db.store.agents.length == 1) pool) (by decide +kernel)
  simp only [Bool.and_eq_true, List.isEmpty_iff] at checked
  obtain ⟨none_before, unread⟩ := checked
  obtain ⟨more, last, result, later, alone, returned, checked, _⟩ :=
    pool.exists_alone (.http (.createAgent headers wanted)) rfl (creationChoices true)
    (fun result more last => isUnavailable result && failures more == 1 &&
      last.shared.db.store.agents.length == 1) unread
  simp only [Bool.and_eq_true, beq_iff_eq] at checked
  obtain ⟨⟨answered, failed⟩, kept⟩ := checked
  refine ⟨events, pool, path, none_before, more, last, later, failed, fun event member => ?_,
    of_isUnavailable answered ▸ returned, ?_⟩
  · obtain ⟨choice, _, what, rfl⟩ := alone event member
    exact ⟨choice, what, rfl⟩
  · rintro nothing
    rw [nothing] at kept
    cases kept

end AgentPlatform
