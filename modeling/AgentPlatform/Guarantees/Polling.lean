import AgentPlatform.Guarantees.Restart
import AgentPlatform.Model.Client
import AgentPlatform.Ownership.Readings

/-! # What clients see of a run

A client that asks for a run again and again sees it move forward: what was answered once is never taken back,
and an answer with a terminal status is final. This holds over restarts of the server, so the result of
`wait_for_run` is the result of the run.
-/

set_option autoImplicit false

namespace AgentPlatform

open Interleaving Relational Database Scenario

variable {lib : Libraries} {config config' config'' : Config} {s t : Store}
  {events : List (Event (platform lib config))} {pool next : Pool (platform lib config)} {runId : Uuid}

/-! ## Rows move forward -/

structure RunRow.Forward (before after : RunRow) : Prop where
  sameRequest : before.SameRequest after
  status : Relation.ReflTransGen RunStatus.Next before.status after.status
  startedAt : before.startedAt ≠ none → after.startedAt = before.startedAt
  final : before.status.terminal = true → after = before

theorem RunRow.Forward.refl (row : RunRow) : row.Forward row := ⟨.refl row, .refl, fun _ => rfl, fun _ => rfl⟩

theorem RunRow.Forward.trans {a b c : RunRow} (first : a.Forward b) (second : b.Forward c) : a.Forward c where
  sameRequest := first.sameRequest.trans second.sameRequest
  status := first.status.trans second.status
  startedAt started := by
    have kept := first.startedAt started
    rw [← kept] at started ⊢
    exact second.startedAt started
  final terminal := by
    obtain rfl := first.final terminal
    exact second.final terminal

/-- The time at which a run was started stays. -/
theorem startedAt_executed {c : Choice} {db db' : Database} {statement : Statement}
    {answer : Except SqlxError statement.Row} (ran : Executed c db statement answer db') {run : RunRow}
    (present : run ∈ db.store.runs) (left : run.startedAt ≠ none → run.status ≠ .pending) :
    ∃ after ∈ db'.store.runs, after.id = run.id ∧ (run.startedAt ≠ none → after.startedAt = run.startedAt) := by
  cases ran with
  | unavailable failing => exact ⟨run, by rwa [lose_store], rfl, fun _ => rfl⟩
  | commit found alive => exact ⟨run, List.mem_append_left _ present, rfl, fun _ => rfl⟩
  | markRunFailed | finalizeRun =>
    refine ⟨_, List.mem_map_of_mem present, ?_⟩
    split <;> exact ⟨rfl, fun _ => rfl⟩
  | beginRunExecution =>
    refine ⟨_, List.mem_map_of_mem present, ?_⟩
    split
    · next chosen =>
      simp only [Bool.and_eq_true, beq_iff_eq] at chosen
      exact ⟨rfl, fun started => absurd chosen.2 (left started)⟩
    · exact ⟨rfl, fun _ => rfl⟩
  | _ => exact ⟨run, present, rfl, fun _ => rfl⟩

/-- A run that was started is not pending. -/
theorem Valid.not_pending {w : World} (valid : Valid lib w) {run : RunRow} (present : run ∈ w.db.store.runs)
    (started : run.startedAt ≠ none) : run.status ≠ .pending := by
  obtain ⟨stage, sound⟩ := valid.runs run present
  have shown := sound.columns.started
  rw [Option.isSome_iff_ne_none.mpr started] at shown
  rw [sound.columns.status]
  cases stage with
  | settled rounds decision verdict | ended rounds decision verdict => cases verdict <;> rintro ⟨⟩
  | _ => first | (rintro ⟨⟩; done) | cases shown

theorem forward_of_step {event : Event (platform lib config)} (left : Left lib s)
    (path : Path (booted lib config s) events pool) (step : Step pool event next) {run : RunRow}
    (present : run ∈ pool.shared.db.store.runs) : ∃ after ∈ next.shared.db.store.runs, run.Forward after := by
  obtain ⟨after, there, later⟩ := (evolves_of_booted left path step).runs run present
  refine ⟨after, there, later.sameRequest, ?_, ?_, later.eq_of_terminal⟩
  · rcases later with rfl | ⟨_, moved⟩
    · exact .refl
    · exact .single moved
  · have kept : ∃ other ∈ next.shared.db.store.runs, other.id = run.id ∧
        (run.startedAt ≠ none → other.startedAt = run.startedAt) := by
      rcases store_of_step step with same | ⟨i, c, statement, answer, _, ran⟩
      · rw [same]
        exact ⟨run, present, rfl, fun _ => rfl⟩
      · exact startedAt_executed ran present ((valid_of_booted left path).not_pending present)
    obtain ⟨other, present', id, kept⟩ := kept
    have valid : Valid lib next.shared := valid_of_booted left (path.snoc step)
    rwa [valid.unique there present' (id.trans later.sameRequest.id.symm)] at kept

/-- A state of one of the processes of the service. -/
def Reached (pool : Pool (platform lib config)) : Prop := ∃ s events, Left lib s ∧
    Path (booted lib config s) events pool

theorem Reached.onward {first : Pool (platform lib config)} {last : Pool (platform lib config')}
    (reached : Reached first) (onward : Onward lib first last) : Reached last := by
  induction onward with
  | here => exact reached
  | step onward step ih =>
    obtain ⟨s, events, left, path⟩ := ih reached
    exact ⟨s, _, left, path.snoc step⟩
  | restart next onward ih =>
    obtain ⟨s, events, left, path⟩ := ih reached
    exact ⟨_, [], left.stopped path, .nil _⟩

theorem Reached.path {first last : Pool (platform lib config)} (reached : Reached first)
    (path : Path first events last) : Reached last := by
  obtain ⟨s, earlier, left, sofar⟩ := reached
  exact ⟨s, _, left, sofar.append path⟩

theorem Reached.valid {pool : Pool (platform lib config)} (reached : Reached pool) : Valid lib pool.shared := by
  obtain ⟨s, events, left, path⟩ := reached
  exact valid_of_booted left path

theorem Onward.of_path {first last : Pool (platform lib config)}
    (path : Path first events last) : Onward lib first last := by
  induction path with
  | nil => exact .here _
  | snoc path step ih => exact ih.step step

theorem forward_of_path {first last : Pool (platform lib config)} (reached : Reached first)
    (path : Path first events last) {run : RunRow} (present : run ∈ first.shared.db.store.runs) :
    ∃ after ∈ last.shared.db.store.runs, run.Forward after := by
  obtain ⟨s, earlier, left, sofar⟩ := reached
  induction path with
  | nil => exact ⟨run, present, .refl run⟩
  | snoc path step ih =>
    obtain ⟨middle, there, forward⟩ := ih
    obtain ⟨after, last, moved⟩ := forward_of_step left (sofar.append path) step there
    exact ⟨after, last, forward.trans moved⟩

theorem forward_of_onward {first : Pool (platform lib config)} {last : Pool (platform lib config')}
    (reached : Reached first) (onward : Onward lib first last) {run : RunRow}
    (present : run ∈ first.shared.db.store.runs) : ∃ after ∈ last.shared.db.store.runs, run.Forward after := by
  induction onward with
  | here => exact ⟨run, present, .refl run⟩
  | step onward step ih =>
    obtain ⟨middle, there, forward⟩ := ih reached present
    obtain ⟨after, last, moved⟩ := forward_of_path (reached.onward onward) (.single step) there
    exact ⟨after, last, forward.trans moved⟩
  | restart next onward ih => exact ih reached present

/-! ## Responses -/

/-- The response that shows the run as it is. -/
def runResponse (run : RunRow) : RunResponse :=
  ⟨run.id, run.agentId, run.status, run.finalAnswer, run.errorReason, run.createdAt, run.startedAt, run.finishedAt⟩

/-- The other response is about the same run, which has gone on meanwhile. -/
structure RunResponse.Precedes (before after : RunResponse) : Prop where
  runId : after.runId = before.runId
  agentId : after.agentId = before.agentId
  createdAt : after.createdAt = before.createdAt
  status : Relation.ReflTransGen RunStatus.Next before.status after.status
  startedAt : before.startedAt ≠ none → after.startedAt = before.startedAt
  final : before.status.terminal = true → after = before

theorem RunRow.Forward.response {before after : RunRow} (forward : before.Forward after) :
    (runResponse before).Precedes (runResponse after) where
  runId := forward.sameRequest.id
  agentId := forward.sameRequest.agentId
  createdAt := forward.sameRequest.createdAt
  status := forward.status
  startedAt := forward.startedAt
  final terminal := congrArg runResponse (forward.final terminal)

theorem RunResponse.Precedes.trans {a b c : RunResponse} (first : a.Precedes b)
    (second : b.Precedes c) : a.Precedes c where
  runId := second.runId.trans first.runId
  agentId := second.agentId.trans first.agentId
  createdAt := second.createdAt.trans first.createdAt
  status := first.status.trans second.status
  startedAt started := by
    have kept := first.startedAt started
    rw [← kept] at started ⊢
    exact second.startedAt started
  final terminal := by
    obtain rfl := first.final terminal
    exact second.final terminal

/-- A response shows the run as it was at some point between the arrival of the request and its return. -/
theorem run_of_asked {first last : Pool (platform lib config)} {headers : HeaderMap} {response : RunResponse}
    (reached : Reached first) (asked : Asked lib headers runId first last (.ok (.run response))) :
    ∃ before after middle run, Path first before middle ∧
      Path middle after last ∧ run ∈ middle.shared.db.store.runs ∧ run.id = runId ∧ response = runResponse run := by
  obtain ⟨s, events, left, sofar⟩ := reached
  obtain ⟨⟨later, path⟩, returned⟩ := asked
  obtain ⟨claims, holds⟩ := holds_of_booted left (sofar.append path)
  obtain ⟨_, _, _, responds⟩ := holds.returned returned
  obtain ⟨owner, row, _, done, rfl⟩ := responds response rfl
  rw [doneBy_append, (sofar.follows rfl).2 _ (Nat.le_refl _), List.nil_append] at done
  obtain ⟨before, after, middle, c, earlier, rest, selected⟩ := selected_of_mem path done fun _ _ => rfl
  obtain ⟨present, _, id⟩ := Store.findRun_some (Option.some.inj selected)
  exact ⟨before, after, middle, row, earlier, rest, present, id, rfl⟩

/-! ## Waiting for a run -/

/-- The responses among the answers, in their order. -/
def responses (answers : List (Except ClientError RunResponse)) : List RunResponse :=
  answers.filterMap Except.toOption

theorem responses_append (answers more : List (Except ClientError RunResponse)) :
    responses (answers ++ more) = responses answers ++ responses more := List.filterMap_append

theorem mem_responses {answers : List (Except ClientError RunResponse)} {response : RunResponse} :
    response ∈ responses answers ↔ .ok response ∈ answers := by
  simp only [responses, List.mem_filterMap]
  constructor
  · rintro ⟨answer | answer, member, same⟩
    · cases same
    · cases same
      exact member
  · exact fun member => ⟨_, member, rfl⟩

/-- The answers go forward, and what they show is still there. -/
structure Agree (runId : Uuid) (answers : List (Except ClientError RunResponse)) (s : Store) : Prop where
  ordered : (responses answers).Pairwise RunResponse.Precedes
  present : ∀ response ∈ responses answers, ∃ run ∈ s.runs, run.id = runId ∧ response.Precedes (runResponse run)

theorem Agree.onward {answers : List (Except ClientError RunResponse)} {first : Pool (platform lib config)}
    {last : Pool (platform lib config')} (agree : Agree runId answers first.shared.db.store) (reached : Reached first)
    (onward : Onward lib first last) : Agree runId answers last.shared.db.store where
  ordered := agree.ordered
  present response member := by
    obtain ⟨run, there, id, precedes⟩ := agree.present response member
    obtain ⟨after, last, forward⟩ := forward_of_onward reached onward there
    exact ⟨after, last, forward.sameRequest.id.trans id, precedes.trans forward.response⟩

/-- An answer without a response. -/
theorem Agree.error {answers : List (Except ClientError RunResponse)} (agree : Agree runId answers s)
    (error : ClientError) : Agree runId (answers ++ [.error error]) s := by
  have silent : responses (answers ++ [.error error]) = responses answers := by
    rw [responses_append]
    exact List.append_nil _
  constructor
  · rw [silent]
    exact agree.ordered
  · rw [silent]
    exact agree.present

/-- The run is read while the request is served, and goes on before the request returns. -/
theorem Agree.response {answers : List (Except ClientError RunResponse)} {first last : Pool (platform lib config)}
    {headers : HeaderMap} {response : RunResponse} (agree : Agree runId answers first.shared.db.store)
    (reached : Reached first) (asked : Asked lib headers runId first last (.ok (.run response))) :
    Agree runId (answers ++ [.ok response]) last.shared.db.store := by
  obtain ⟨before, after, middle, run, earlier, rest, there, id, rfl⟩ := run_of_asked reached asked
  have known := agree.onward reached (.of_path earlier)
  have valid : Valid lib middle.shared := (reached.path earlier).valid
  have now : Agree runId (answers ++ [.ok (runResponse run)]) middle.shared.db.store := by
    have forward (response : RunResponse) (member : response ∈ responses answers) :
        response.Precedes (runResponse run) := by
      obtain ⟨other, present, same, precedes⟩ := known.present response member
      rwa [valid.unique there present (same.trans id.symm)] at precedes
    constructor
    · rw [responses_append]
      refine List.pairwise_append.mpr ⟨agree.ordered, List.pairwise_singleton _ _, fun response member new same => ?_⟩
      obtain rfl := List.mem_singleton.mp same
      exact forward response member
    · intro response member
      rw [responses_append] at member
      rcases List.mem_append.mp member with old | new
      · exact ⟨run, there, id, forward response old⟩
      · obtain rfl := List.mem_singleton.mp new
        exact ⟨run, there, id, (RunRow.Forward.refl run).response⟩
  exact now.onward (reached.path earlier) (.of_path rest)

theorem Agree.asked {answers : List (Except ClientError RunResponse)} {first last : Pool (platform lib config)}
    {headers : HeaderMap} {result : Except AppError Response} (agree : Agree runId answers first.shared.db.store)
    (reached : Reached first) (asked : Asked lib headers runId first last result) :
    Agree runId (answers ++ [ApiClient.getRun result]) last.shared.db.store := by
  obtain ⟨events, path⟩ := asked.path
  have kept := agree.onward reached (.of_path path)
  cases result with
  | error fault => exact kept.error _
  | ok response =>
    cases response with
    | run response => exact agree.response reached asked
    | _ => exact kept.error _

theorem agree_of_polls {answers : List (Except ClientError RunResponse)} {first : Pool (platform lib config)}
    {last : Pool (platform lib config')} (reached : Reached first) (polls : Polls lib runId first answers last) :
    Agree runId answers last.shared.db.store ∧ Reached last := by
  induction polls with
  | nothing onward => exact ⟨⟨.nil, by rintro _ ⟨⟩⟩, reached.onward onward⟩
  | answered earlier asked onward ih =>
    obtain ⟨agree, there⟩ := ih reached
    obtain ⟨_, path⟩ := asked.path
    exact ⟨(agree.asked there asked).onward (there.path path) onward, (there.path path).onward onward⟩
  | lost earlier onward ih =>
    obtain ⟨agree, there⟩ := ih reached
    exact ⟨(agree.onward there onward).error _, there.onward onward⟩

/-- The result of the wait is one of the answers. -/
theorem waitForRun_ok {deadline : ℕ} {polls : List (Except ClientError RunResponse × ℕ)} {run : RunResponse}
    (waited : waitForRun runId deadline polls = some (.ok run)) : (∃ now, (.ok run, now) ∈ polls) ∧
      run.status.terminal = true := by
  induction polls with
  | nil => cases waited
  | cons poll rest ih =>
    obtain ⟨answer | answer, now⟩ := poll
    · cases waited
    · rw [waitForRun] at waited
      split_ifs at waited with final late
      · obtain rfl := Except.ok.inj (Option.some.inj waited)
        refine ⟨⟨now, List.mem_cons_self ..⟩, ?_⟩
        cases status : answer.status with
        | pending => exact absurd status final.1
        | running => exact absurd status final.2
        | success | failed => rfl
      · cases waited
      · obtain ⟨⟨now, member⟩, terminal⟩ := ih waited
        exact ⟨⟨now, List.mem_cons_of_mem _ member⟩, terminal⟩

/-- Whatever other requests do and however often the server is stopped and started again, the responses that clients
get for a run, one after the other, are views of the same run going forward. What `wait_for_run` returns is over, and
every response after it is the same. -/
theorem waited_for_good {answers : List (Except ClientError RunResponse)} {first : Pool (platform lib config)}
    {last : Pool (platform lib config')} (reached : Reached first) (polls : Polls lib runId first answers last) :
    (responses answers).Pairwise RunResponse.Precedes ∧ ∀ waiting after times deadline run,
      answers = waiting ++ after → waitForRun runId deadline (waiting.zip times) = some (.ok run) →
        run.status.terminal = true ∧ run.runId = runId ∧ ∀ response, .ok response ∈ after → response = run := by
  obtain ⟨agree, _⟩ := agree_of_polls reached polls
  refine ⟨agree.ordered, ?_⟩
  rintro waiting after times deadline run rfl waited
  obtain ⟨⟨now, member⟩, terminal⟩ := waitForRun_ok waited
  have got : run ∈ responses waiting := mem_responses.mpr (List.of_mem_zip member).1
  have ordered := agree.ordered
  rw [responses_append] at ordered
  obtain ⟨row, _, id, precedes⟩ := agree.present run (by rw [responses_append]; exact List.mem_append_left _ got)
  refine ⟨terminal, precedes.runId.symm.trans id, fun response later => ?_⟩
  exact ((List.pairwise_append.mp ordered).2.2 run got response (mem_responses.mpr later)).final terminal

namespace Scenario

/-- The client asks for the run; its request is this thread. -/
def askRun (thread now : ℕ) : List (Label (platform permissive config)) :=
  arrive (.getRun headers 33) :: moves thread now 2

def showsStatus (thread : ℕ) (status : RunStatus) (pool : Pool (platform permissive config)) : Bool :=
  match pool.threads[thread]? with
  | some ⟨_, _, .done (.ok (.run response))⟩ => response.status == status
  | _ => false

theorem asked_of_replay {first : Pool (platform permissive config)} {thread now : ℕ} {status : RunStatus}
    {check : Pool (platform permissive config) → Bool} (ran : (first.replay? (askRun thread now)).any (fun outcome =>
      showsStatus first.threads.length status outcome.2 && check outcome.2) = true) : ∃ response last,
        Asked permissive headers 33 first last (.ok (.run response)) ∧
            response.status = status ∧ check last = true := by
  obtain ⟨⟨events, last⟩, replayed, checked⟩ := (Option.any_eq_true ..).mp ran
  obtain ⟨shown, checked⟩ := Bool.and_eq_true_iff.mp checked
  have path := Pool.replay?_sound replayed
  obtain ⟨event, next, later, rfl, moved, rest⟩ := Pool.replay?_cons replayed
  cases moved
  unfold showsStatus at shown
  split at shown
  · next task owned response present =>
    obtain ⟨⟨task', owned', program⟩, there, same⟩ := (Pool.replay?_sound rest).task List.getElem?_concat_length
    cases present.symm.trans there
    cases same
    exact ⟨response, last, ⟨⟨later, path⟩, owned, present⟩, by simpa using shown, checked⟩
  · cases shown

/-- The next process answers a request for the run. -/
def asksAgain (stopped : Pool (platform permissive ⟨1, 1⟩)) : Bool :=
  ((booted permissive ⟨2, 1⟩ stopped.shared.db.store).replay? (askRun 0 80)).any fun outcome =>
    showsStatus 0 .success outcome.2 && true

/-- The client asks for the run when it is over. -/
def asksForEnd (ended : Pool (platform permissive ⟨1, 1⟩)) : Bool :=
  (ended.replay? (askRun 7 70)).any fun outcome => showsStatus ended.threads.length .success outcome.2 &&
    asksAgain outcome.2

/-- The run comes to its end. -/
def goesOn (pool : Pool (platform permissive ⟨1, 1⟩)) : Bool :=
  (pool.replay? (moves 5 43 16)).any fun outcome => asksForEnd outcome.2

end Scenario

/-- A client that asks while the run is executed, waits for its end, and asks again after a restart. -/
theorem waited_for_good_restarted : ∃ (first : Pool (platform permissive ⟨1, 1⟩))
    (last : Pool (platform permissive ⟨2, 1⟩)) (running done again : RunResponse),
      Polls permissive 33 first [.ok running, .ok done, .ok again] last ∧
      running.status = .running ∧ done.status = .success ∧ running.Precedes done ∧
      waitForRun 33 30 [(.ok running, 1), (.ok done, 2)] = some (.ok done) ∧ again = done := by
  obtain ⟨events, first, path, checked⟩ := (started permissive ⟨1, 1⟩).exists_path interrupted
    (fun _ pool => (pool.replay? (askRun 6 50)).any fun outcome =>
      showsStatus pool.threads.length .running outcome.2 && goesOn outcome.2) (by decide +kernel)
  obtain ⟨running, asked, firstAsked, isRunning, later⟩ := asked_of_replay checked
  obtain ⟨_, ended, execution, later⟩ := asked.exists_path (moves 5 43 16) (fun _ ended => asksForEnd ended) later
  obtain ⟨done, stopped, secondAsked, isDone, later⟩ := asked_of_replay later
  obtain ⟨again, last, thirdAsked, _, _⟩ :=
    @asked_of_replay _ (booted permissive ⟨2, 1⟩ stopped.shared.db.store) 0 80 .success (fun _ => true) later
  have polls : Polls permissive 33 first [.ok running, .ok done, .ok again] last :=
    ((((Polls.nothing (.here first)).answered firstAsked (.of_path execution)).answered secondAsked
      (.restart ⟨2, 1⟩ (.here stopped))).answered thirdAsked (.here last))
  have waits : waitForRun 33 30 ([.ok running, .ok done].zip [1, 2]) = some (.ok done) := by
    simp [waitForRun, isRunning, isDone]
  rw [started_eq_booted] at path
  obtain ⟨ordered, final⟩ := waited_for_good ⟨_, _, Left.empty, path⟩ polls
  obtain ⟨_, _, same⟩ := final [.ok running, .ok done] [.ok again] [1, 2] 30 done rfl waits
  refine ⟨first, last, running, done, again, polls, isRunning, isDone, ?_, waits,
    same again (List.mem_singleton_self _)⟩
  exact (List.pairwise_cons.mp ordered).1 done (List.mem_cons_self ..)

/-! ## Runs that were interrupted -/

/-- The process has found this run when it started. -/
def Found (run : RunRow) (pool : Pool (platform lib config)) : Prop :=
  ∃ s events, Left lib s ∧ Path (booted lib config s) events pool ∧ run ∈ s.runs

theorem Found.reached {run : RunRow} {pool : Pool (platform lib config)} (found : Found run pool) : Reached pool := by
  obtain ⟨s, events, left, path, _⟩ := found
  exact ⟨s, events, left, path⟩

theorem Found.kept {run : RunRow} {pool : Pool (platform lib config)} (found : Found run pool) :
    run ∈ pool.shared.db.store.runs := by
  obtain ⟨s, events, left, path, present⟩ := found
  exact (kept_by_booted left path present).1

theorem Found.onward {run : RunRow} {first : Pool (platform lib config)} {last : Pool (platform lib config')}
    (found : Found run first) (onward : Onward lib first last) : Found run last := by
  induction onward with
  | here => exact found
  | step onward step ih =>
    obtain ⟨s, events, left, path, present⟩ := ih found
    exact ⟨s, _, left, path.snoc step, present⟩
  | restart next onward ih =>
    have kept := (ih found).kept
    obtain ⟨s, events, left, path, _⟩ := ih found
    exact ⟨_, [], left.stopped path, .nil _, kept⟩

theorem found_of_polls {run : RunRow} {answers : List (Except ClientError RunResponse)}
    {first : Pool (platform lib config)} {last : Pool (platform lib config')} (found : Found run first)
    (polls : Polls lib run.id first answers last) :
    Found run last ∧ ∀ response, .ok response ∈ answers → response = runResponse run := by
  generalize same : run.id = runId at polls
  induction polls with
  | nothing onward => exact ⟨found.onward onward, by rintro _ ⟨⟩⟩
  | @answered _ _ first before after last answers headers result earlier asked onward ih =>
    obtain ⟨there, answered⟩ := ih found
    obtain ⟨_, path⟩ := asked.path
    refine ⟨(there.onward (.of_path path)).onward onward, fun response member => ?_⟩
    rcases List.mem_append.mp member with old | new
    · exact answered response old
    · cases result with
      | error fault => cases List.mem_singleton.mp new
      | ok sent =>
        cases sent with
        | run sent =>
          cases List.mem_singleton.mp new
          obtain ⟨_, _, middle, row, sofar, _, present, id, rfl⟩ := run_of_asked there.reached asked
          have now := there.onward (.of_path sofar)
          rw [now.reached.valid.unique now.kept present (id.trans same.symm)]
        | _ => cases List.mem_singleton.mp new
  | lost earlier onward ih =>
    obtain ⟨there, answered⟩ := ih found
    refine ⟨there.onward onward, fun response member => ?_⟩
    rcases List.mem_append.mp member with old | new
    · exact answered response old
    · cases List.mem_singleton.mp new

/-- A run that its process has not finished is never finished: however often it is asked for after the restart, each
response shows it as it was, and `wait_for_run` never returns it. -/
theorem interrupted_for_good {answers : List (Except ClientError RunResponse)} {pool : Pool (platform lib config)}
    {last : Pool (platform lib config'')} {run : RunRow} (reached : Reached pool)
    (present : run ∈ pool.shared.db.store.runs) (unfinished : run.status.terminal = false)
    (polls : Polls lib run.id (booted lib config' pool.shared.db.store) answers last) :
    (∀ response, .ok response ∈ answers → response = runResponse run) ∧
      ∀ times deadline result, waitForRun run.id deadline (answers.zip times) ≠ some (.ok result) := by
  obtain ⟨s, events, left, path⟩ := reached
  obtain ⟨_, answered⟩ := found_of_polls ⟨_, [], left.stopped path, .nil _, present⟩ polls
  refine ⟨answered, fun times deadline result waited => ?_⟩
  obtain ⟨⟨now, member⟩, terminal⟩ := waitForRun_ok waited
  rw [answered result (List.of_mem_zip member).1] at terminal
  exact absurd terminal (Bool.eq_false_iff.mp unfinished)

/-- The run that was running when its process stopped, asked for again. -/
theorem interrupted_for_good_restarted : ∃ (pool : Pool (platform permissive ⟨1, 1⟩))
    (last : Pool (platform permissive ⟨2, 1⟩)) (run : RunRow) (response : RunResponse),
      run ∈ pool.shared.db.store.runs ∧ run.status = .running ∧
      Polls permissive run.id (booted permissive ⟨2, 1⟩ pool.shared.db.store) [.ok response] last ∧
        response = runResponse run := by
  obtain ⟨events, stopped, path, checked⟩ := (started permissive ⟨1, 1⟩).exists_path interrupted
    (fun _ pool => pool.shared.db.store.runs.any (fun run => run.id == 33 && run.status == .running) &&
      ((booted permissive ⟨2, 1⟩ pool.shared.db.store).replay? (askRun 0 50)).any fun outcome =>
        showsStatus 0 .running outcome.2 && true) (by decide +kernel)
  obtain ⟨running, asked⟩ := Bool.and_eq_true_iff.mp checked
  obtain ⟨run, present, shown⟩ := List.any_eq_true.mp running
  obtain ⟨id, status⟩ : run.id = 33 ∧ run.status = .running := by simpa using shown
  obtain ⟨response, last, asked, _, _⟩ :=
    @asked_of_replay _ (booted permissive ⟨2, 1⟩ stopped.shared.db.store) 0 50 .running (fun _ => true) asked
  have polls : Polls permissive run.id (booted permissive ⟨2, 1⟩ stopped.shared.db.store) [.ok response] last := by
    rw [id]
    exact (Polls.nothing (.here _)).answered asked (.here last)
  rw [started_eq_booted] at path
  have shown := (interrupted_for_good ⟨_, _, Left.empty, path⟩ present (by rw [status]; rfl) polls).1
  exact ⟨stopped, last, run, response, present, status, polls, shown response (List.mem_singleton_self _)⟩

end AgentPlatform
