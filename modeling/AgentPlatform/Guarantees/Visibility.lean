import AgentPlatform.Guarantees.Completion
import AgentPlatform.Ownership.Closing

/-! # What a poller sees

The status of a run and its `run_end` event are two statements that commit by themselves, the status
first. A client that has seen a terminal status gets the event as soon as the handler or task that settled the
run has appended it, and at the latest when that thread has returned without a failed statement.
-/

set_option autoImplicit false

namespace AgentPlatform

open Interleaving Relational Database Scenario

variable {lib : Libraries} {config : Config} {events before after : List (Event (platform lib config))}
  {pool middle next : Pool (platform lib config)} {tenantId runId : Uuid}

/-- The `run_end` event of this run is appended. -/
def Closes (tenantId runId : Uuid) (event : Event (platform lib config)) : Prop :=
  ∃ i c payload, event = .performed i c ⟨.sql (.appendEvent tenantId runId .runEnd payload), .ok ()⟩

/-- The trace of this run contains a `run_end` event. -/
def Store.Closed (s : Store) (tenantId runId : Uuid) : Prop :=
  ∃ trace ∈ s.traceRows tenantId runId, trace.type = .runEnd

theorem Store.traceRows_evolve {s t : Store} (evolves : s.Evolves t) {trace : TraceRow}
    (present : trace ∈ s.traceRows tenantId runId) : trace ∈ t.traceRows tenantId runId := by
  obtain ⟨there, mine⟩ := List.mem_filter.mp present
  exact List.mem_filter.mpr ⟨evolves.runTraces.subset there, mine⟩

/-- A trace has its `run_end` event since that was appended, and only since then. -/
theorem closed_iff (path : Path (started lib config) events pool) :
    pool.shared.db.store.Closed tenantId runId ↔ ∃ event ∈ events, Closes tenantId runId event := by
  constructor
  · induction path with
    | nil =>
      rintro ⟨trace, present, _⟩
      simp [started, World.new, Store.traceRows] at present
    | snoc path step ih =>
      rintro ⟨trace, present, type⟩
      rename_i middle last events event
      have old (there : trace ∈ middle.shared.db.store.traceRows tenantId runId) :
          ∃ earlier ∈ events ++ [event], Closes tenantId runId earlier := by
        obtain ⟨earlier, member, closes⟩ := ih ⟨trace, there, type⟩
        exact ⟨earlier, List.mem_append_left _ member, closes⟩
      rcases store_of_step step with same | ⟨i, c, statement, answer, rfl, ran⟩
      · exact old (same ▸ present)
      rcases traceRows_executed ran tenantId runId with same | ⟨eventType, payload, appended, same⟩
      · exact old (same ▸ present)
      · cases appended
        rw [same] at present
        rcases List.mem_append.mp present with there | new
        · exact old there
        · obtain rfl := List.mem_singleton.mp new
          obtain rfl : eventType = .runEnd := type
          exact ⟨_, List.mem_append_right _ (List.mem_singleton_self _), i, c, payload, rfl⟩
  · rintro ⟨event, member, closes⟩
    refine path.since (fun pool => pool.shared.db.store.Closed tenantId runId) ?_ ?_ member closes
    · rintro before middle _ next path step ⟨i, c, payload, rfl⟩
      let row : TraceRow :=
        ⟨c.id, tenantId, runId, middle.shared.db.store.nextSeq tenantId runId, .runEnd, payload, c.now⟩
      refine ⟨row, ?_, rfl⟩
      rw [traceRows_appendEvent (executed (execute_of_step step))]
      exact List.mem_append_right _ (List.mem_singleton_self _)
    · rintro before middle event next path step ⟨trace, present, type⟩
      exact ⟨trace, Store.traceRows_evolve (evolves_of_started path step) present, type⟩

/-- A run that is over stays as it is. -/
theorem terminal_of_path (path : Path (started lib config) before middle) (later : Path middle after pool)
    {run : RunRow} (present : run ∈ middle.shared.db.store.runs) (terminal : run.status.terminal = true) :
    run ∈ pool.shared.db.store.runs := by
  induction later with
  | nil => exact present
  | snoc later step ih =>
    obtain ⟨last, there, since⟩ := (evolves_of_started (path.append later) step).runs run ih
    rwa [since.eq_of_terminal terminal] at there

/-- What a `get_run` query has answered. -/
theorem getRun_of_path (path : Path (started lib config) events pool) {i : ℕ} {row : RunRow}
    (answered : ⟨.sql (.getRun tenantId runId), .ok (some row)⟩ ∈ doneBy i events)
    (terminal : row.status.terminal = true) :
    row ∈ pool.shared.db.store.runs ∧ row.tenantId = tenantId ∧ row.id = runId := by
  obtain ⟨c, member⟩ := mem_doneBy.mp answered
  obtain ⟨earlier, rest, rfl⟩ := List.append_of_mem member
  obtain ⟨now, next, before, step, later⟩ := path.cut
  obtain ⟨found, _⟩ := answer_of_select (executed (execute_of_step step)) rfl
  obtain ⟨present, owner⟩ := Store.findRun_some found.symm
  exact ⟨terminal_of_path before ((Path.single step).append later) present terminal, owner⟩

/-! ## Who has settled a run -/

/-- A run gets a terminal status from a statement that settles it. -/
theorem settled_executed {c : Choice} {db db' : Database} {statement : Statement}
    {answer : Except SqlxError statement.Row} (wellFormed : db.WellFormed) (ran : Executed c db statement answer db')
    {run : RunRow} (present : run ∈ db'.store.runs) (terminal : run.status.terminal = true) :
    (∃ old ∈ db.store.runs, old.id = run.id ∧ old.tenantId = run.tenantId ∧ old.status.terminal = true) ∨
      SettlesRun run.tenantId run.id ⟨.sql statement, answer⟩ := by
  cases ran with
  | unavailable failing =>
    rw [lose_store] at present
    exact .inl ⟨run, present, rfl, rfl, terminal⟩
  | @commit tx transaction found alive =>
    rcases List.mem_append.mp present with old | new
    · exact .inl ⟨run, old, rfl, rfl, terminal⟩
    · rw [(wellFormed.runs.fresh tx run (mem_own.mp new)).status] at terminal
      cases terminal
  | @markRunFailed owner id reason =>
    obtain ⟨old, there, rfl⟩ := List.mem_map.mp present
    split at terminal
    · next selected =>
      simp only [Bool.and_eq_true, beq_iff_eq] at selected
      obtain ⟨rfl, rfl⟩ := selected
      simp only [beq_self_eq_true, Bool.and_self, if_true]
      exact .inr (.refused reason _)
    · next other => exact .inl ⟨old, there, by rw [if_neg other], by rw [if_neg other], terminal⟩
  | @beginRunExecution owner id =>
    obtain ⟨old, there, rfl⟩ := List.mem_map.mp present
    split at terminal
    · cases terminal
    · next other => exact .inl ⟨old, there, by rw [if_neg other], by rw [if_neg other], terminal⟩
  | @finalizeRun owner id status finalAnswer errorReason =>
    obtain ⟨old, there, rfl⟩ := List.mem_map.mp present
    split at terminal
    · next selected =>
      simp only [Bool.and_eq_true, beq_iff_eq] at selected
      obtain ⟨rfl, rfl⟩ := selected
      simp only [beq_self_eq_true, Bool.and_self, if_true]
      exact .inr (.ended status finalAnswer errorReason _)
    · next other => exact .inl ⟨old, there, by rw [if_neg other], by rw [if_neg other], terminal⟩
  | _ => exact .inl ⟨run, present, rfl, rfl, terminal⟩

/-- Thread `i` has given the run its terminal status: the task of the run, or the request that was refused. -/
def RunSettledBy (i : ℕ) (tenantId runId : Uuid) (events : List (Event (platform lib config))) : Prop :=
  ∃ what ∈ doneBy i events, SettlesRun tenantId runId what

theorem settledBy_of_terminal (path : Path (started lib config) events pool) {run : RunRow}
    (present : run ∈ pool.shared.db.store.runs) (terminal : run.status.terminal = true) :
    ∃ i, RunSettledBy i run.tenantId run.id events := by
  induction path generalizing run with
  | nil => simp [started, World.new] at present
  | @snoc middle last events event path step ih =>
    have earlier (old : ∃ old ∈ middle.shared.db.store.runs, old.id = run.id ∧ old.tenantId = run.tenantId ∧
        old.status.terminal = true) : ∃ i, RunSettledBy i run.tenantId run.id (events ++ [event]) := by
      obtain ⟨old, there, id, tenantId, terminal⟩ := old
      obtain ⟨i, what, member, settles⟩ := ih there terminal
      exact ⟨i, what, doneBy_subset i events [event] member, id ▸ tenantId ▸ settles⟩
    rcases store_of_step step with same | ⟨i, c, statement, answer, rfl, ran⟩
    · rw [same] at present
      exact earlier ⟨run, present, rfl, rfl, terminal⟩
    · rcases settled_executed (valid_of_started path).wellFormed ran present terminal with old | settles
      · exact earlier old
      · exact ⟨i, _, mem_doneBy.mpr ⟨c, List.mem_append_right _ (List.mem_singleton_self _)⟩, settles⟩

/-- Thread `i` has appended the `run_end` event of the run, or has returned and lost no statement. -/
def Delivered (i : ℕ) (tenantId runId : Uuid) (events : List (Event (platform lib config)))
    (pool : Pool (platform lib config)) : Prop :=
  (∃ what ∈ doneBy i events, EndsRun tenantId runId what) ∨
    (∃ task result, pool.Returned i task result) ∧ (doneBy i events).any failed = false

/-- What the thread that settled a run has delivered is in the trace. -/
theorem Delivered.closed {i : ℕ} (path : Path (started lib config) events pool)
    (delivered : Delivered i tenantId runId events pool) (settled : RunSettledBy i tenantId runId events) :
    pool.shared.db.store.Closed tenantId runId := by
  have appended : ∃ what ∈ doneBy i events, EndsRun tenantId runId what := by
    rcases delivered with appended | ⟨⟨task, result, owned, present⟩, healthy⟩
    · exact appended
    · have tidy : Tidy (doneBy i events) := path.along rfl present (tidies_body task [] .start)
      exact tidy healthy tenantId runId settled
  obtain ⟨what, member, ends⟩ := appended
  obtain ⟨c, performed⟩ := mem_doneBy.mp member
  cases ends with
  | appended payload => exact (closed_iff path).mpr ⟨_, performed, i, c, payload, rfl⟩

/-- What was delivered stays delivered. -/
theorem Delivered.later {i : ℕ} (delivered : Delivered i tenantId runId events pool) (path : Path pool after next) :
    Delivered i tenantId runId (events ++ after) next := by
  rcases delivered with ⟨what, member, ends⟩ | ⟨⟨task, result, returned⟩, healthy⟩
  · exact .inl ⟨what, doneBy_subset i events after member, ends⟩
  · refine .inr ⟨⟨task, result, path.returned returned⟩, ?_⟩
    rwa [doneBy_append, path.quiet_of_returned returned, List.append_nil]

/-! ## What is seen afterwards -/

/-- The trace shows the end of its run with this status. -/
def ShowsEnd (trace : List TraceEventResponse) (status : RunStatus) : Prop :=
  ∃ event ∈ trace, event.eventType = .runEnd ∧ event.payload.get "status" = some (.string status.asStr)

/-- What a `get_trace` query reads of a run that is over and closed shows the end with the status of the row. -/
theorem showsEnd_of_closed (path : Path (started lib config) events pool) {run : RunRow}
    (present : run ∈ pool.shared.db.store.runs) (closed : pool.shared.db.store.Closed run.tenantId run.id) :
    ShowsEnd (((pool.shared.db.store.traceRows run.tenantId run.id).insertionSort (·.seq ≤ ·.seq)).map fun row =>
      ⟨row.seq, row.type, lib.decodeJson row.payload, row.createdAt⟩) run.status := by
  obtain ⟨logged, there, type⟩ := closed
  refine ⟨_, List.mem_map.mpr ⟨logged, (List.mem_insertionSort _).mpr there, rfl⟩, type, ?_⟩
  obtain ⟨stage, sound⟩ := (valid_of_started path).runs run present
  obtain ⟨inside, mine⟩ := List.mem_filter.mp there
  simp only [Bool.and_eq_true, beq_iff_eq] at mine
  have closing := sound.event_mem inside mine.1 mine.2
  rw [type] at closing
  rw [lib.decodeJson_get, (sound.endsWith closing).status]
  rfl

/-- A client that has seen a terminal status asks for the trace. Some thread has settled the run, and once such a
thread has delivered, the trace that is read shows the end with the status that was seen. Otherwise the trace shows it
exactly if the event has been appended by then. -/
theorem run_end_visible (path : Path (started lib config) before middle) (later : Path middle after pool)
    {j k : ℕ} {headers headers' : HeaderMap} {response : RunResponse} {trace : List TraceEventResponse}
    (answered : middle.Returned j (.http (.getRun headers runId)) (.ok (.run response)))
    (terminal : response.status.terminal = true) (asked : middle.threads.length ≤ k)
    (traced : pool.Returned k (.http (.getTrace headers' runId)) (.ok (.trace trace)))
    (client : middle.shared.db.store.authenticates lib headers tenantId)
    (client' : pool.shared.db.store.authenticates lib headers' tenantId) :
    (∃ i, RunSettledBy i tenantId runId before) ∧ ∃ earlier c rows rest now,
      after = earlier ++ .performed k c ⟨.sql (.getTrace tenantId runId), .ok rows⟩ :: rest ∧
        Path middle earlier now ∧
        (∀ i, RunSettledBy i tenantId runId before → Delivered i tenantId runId (before ++ earlier) now →
          ShowsEnd trace response.status) ∧
      (ShowsEnd trace response.status ↔ ∃ event ∈ before ++ earlier, Closes tenantId runId event) := by
  obtain ⟨claims, holds⟩ := holds_of_started path
  obtain ⟨_, _, _, responds⟩ := holds.returned answered
  obtain ⟨owner, row, known, done, rfl⟩ := responds response rfl
  obtain rfl := Store.authenticates_unique client known
  obtain ⟨present, rowTenant, rowId⟩ := getRun_of_path path done terminal
  obtain ⟨claims', holds'⟩ := holds_of_started (path.append later)
  obtain ⟨_, _, _, responds'⟩ := holds'.returned traced
  obtain ⟨owner, rows, known', done', rfl⟩ := responds' trace rfl
  obtain rfl := Store.authenticates_unique client' known'
  rw [doneBy_append, (path.follows rfl).2 k asked, List.nil_append] at done'
  obtain ⟨c, member⟩ := mem_doneBy.mp done'
  obtain ⟨earlier, rest, rfl⟩ := List.append_of_mem member
  obtain ⟨now, next, until_now, step, _⟩ := later.cut
  obtain ⟨rfl, _⟩ := answer_of_select (executed (execute_of_step step)) rfl
  have shown (closed : now.shared.db.store.Closed tenantId runId) : ShowsEnd _ row.status :=
    rowTenant ▸ rowId ▸ showsEnd_of_closed (path.append until_now) (terminal_of_path path until_now present terminal)
      (rowTenant.symm ▸ rowId.symm ▸ closed)
  refine ⟨?_, earlier, c, _, rest, now, rfl, until_now, fun i settled delivered =>
    shown ?_, ?_, fun closes => shown ?_⟩
  · have settled := settledBy_of_terminal path present terminal
    rwa [rowTenant, rowId] at settled
  · obtain ⟨what, member, settles⟩ := settled
    exact delivered.closed (path.append until_now) ⟨what, doneBy_subset i before earlier member, settles⟩
  · rintro ⟨event, shown, type, _⟩
    obtain ⟨logged, there, rfl⟩ := List.mem_map.mp shown
    exact (closed_iff (path.append until_now)).mp ⟨logged, (List.mem_insertionSort _).mp there, type⟩
  · exact (closed_iff (path.append until_now)).mpr closes

namespace Scenario

/-- The headers authenticate as this tenant. -/
def identifies (sent : HeaderMap) (tenantId : Uuid) (s : Store) : Bool :=
  sent.apiKey.any fun (apiKey, keyPrefix) => (s.findApiKey keyPrefix).any fun row =>
    (verifyApiKey permissive apiKey row.keyHash).toBool && row.tenantId == tenantId

theorem of_identifies {sent : HeaderMap} {tenantId : Uuid} {s : Store} (known : identifies sent tenantId s = true) :
    s.authenticates permissive sent tenantId := by
  simp only [identifies, Option.any_eq_true, Bool.and_eq_true, beq_iff_eq] at known
  obtain ⟨⟨apiKey, keyPrefix⟩, parsed, row, found, verified, owner⟩ := known
  refine ⟨apiKey, keyPrefix, row, parsed, found, ?_, owner⟩
  cases accepted : verifyApiKey permissive apiKey row.keyHash with
  | error fault => simp [accepted, Except.toBool] at verified
  | ok done => rfl

/-- Thread `i` has answered the tenant that this run was successful. -/
def polled (i : ℕ) (runId : Uuid) (pool : Pool (platform permissive ⟨1, 1⟩)) : Bool :=
  match pool.threads[i]? with
  | some ⟨.http (.getRun sent asked), _, .done (.ok (.run response))⟩ =>
      asked == runId && response.status == .success && identifies sent 1 pool.shared.db.store
  | _ => false

theorem of_polled {i : ℕ} {runId : Uuid} {pool : Pool (platform permissive ⟨1, 1⟩)}
    (done : polled i runId pool = true) :
    ∃ sent response, pool.Returned i (.http (.getRun sent runId)) (.ok (.run response)) ∧
      response.status = .success ∧ pool.shared.db.store.authenticates permissive sent 1 := by
  rw [polled] at done
  split at done
  · next sent asked owned response present =>
    simp only [Bool.and_eq_true, beq_iff_eq] at done
    obtain ⟨⟨rfl, success⟩, known⟩ := done
    exact ⟨sent, response, ⟨owned, present⟩, success, of_identifies known⟩
  · cases done

/-- Thread `i` has answered the tenant with a trace of this run, with or without a `run_end` event. -/
def traced (i : ℕ) (runId : Uuid) (closed : Bool) (pool : Pool (platform permissive ⟨1, 1⟩)) : Bool :=
  match pool.threads[i]? with
  | some ⟨.http (.getTrace sent asked), _, .done (.ok (.trace trace))⟩ =>
      asked == runId && identifies sent 1 pool.shared.db.store &&
        (trace.any fun event => event.eventType == .runEnd) == closed
  | _ => false

theorem of_traced {i : ℕ} {runId : Uuid} {closed : Bool} {pool : Pool (platform permissive ⟨1, 1⟩)}
    (done : traced i runId closed pool = true) :
    ∃ sent trace, pool.Returned i (.http (.getTrace sent runId)) (.ok (.trace trace)) ∧
      pool.shared.db.store.authenticates permissive sent 1 ∧
      (trace.any fun event => event.eventType == .runEnd) = closed := by
  rw [traced] at done
  split at done
  · next sent asked owned trace present =>
    simp only [Bool.and_eq_true, beq_iff_eq] at done
    obtain ⟨⟨rfl, known⟩, closing⟩ := done
    exact ⟨sent, trace, ⟨owned, present⟩, of_identifies known, closing⟩
  · cases done

/-- Thread `i` has settled this run of the tenant. -/
def settled (i : ℕ) (runId : Uuid) (events : List (Event (platform permissive ⟨1, 1⟩))) : Bool :=
  (doneBy i events).any fun what => match what with
    | ⟨.sql (.finalizeRun 1 run _ _ _), .ok _⟩ => run == runId
    | _ => false

theorem of_settled {i : ℕ} {runId : Uuid} {events : List (Event (platform permissive ⟨1, 1⟩))}
    (done : settled i runId events = true) : RunSettledBy i 1 runId events := by
  obtain ⟨what, member, done⟩ := List.any_eq_true.mp done
  split at done
  · next run status finalAnswer errorReason count =>
    obtain rfl := beq_iff_eq.mp done
    exact ⟨_, member, .ended status finalAnswer errorReason count⟩
  · cases done

/-- A client polls the run after so many operations of its task. -/
def poll (operations : ℕ) : List (Label (platform permissive ⟨1, 1⟩)) :=
  onboarding ++ [arrive (.createTool headers staticTool)] ++ moves 2 10 2 ++
  [arrive (.createAgent headers ⟨none, "Answer.", [11], 5⟩)] ++ moves 3 20 7 ++
  [arrive (.startRun headers 22 question)] ++ moves 4 30 10 ++ moves 5 40 operations ++
  [arrive (.getRun headers 33)] ++ moves 6 60 2

/-- The client asks for the trace. -/
def askTrace : List (Label (platform permissive ⟨1, 1⟩)) := [arrive (.getTrace headers 33)] ++ moves 7 70 2

/-- A client that has seen the success of the run gets its trace, whether or not the task has returned. -/
theorem polls (operations : ℕ) (closed : Bool)
    (ran : ((started permissive ⟨1, 1⟩).replay? (poll operations)).any (fun outcome =>
      polled 6 33 outcome.2 && decide (outcome.2.threads.length ≤ 7) && settled 5 33 outcome.1 &&
        (completed 5 33 outcome.1 outcome.2 == closed) &&
        (outcome.2.replay? askTrace).any fun outcome' => traced 7 33 closed outcome'.2) = true) :
    ∃ before middle after pool sent sent' response trace, Path (started permissive ⟨1, 1⟩) before middle ∧
      Path middle after pool ∧ middle.Returned 6 (.http (.getRun sent 33)) (.ok (.run response)) ∧
      response.status = .success ∧ middle.threads.length ≤ 7 ∧
      pool.Returned 7 (.http (.getTrace sent' 33)) (.ok (.trace trace)) ∧
      middle.shared.db.store.authenticates permissive sent 1 ∧ pool.shared.db.store.authenticates permissive sent' 1 ∧
      RunSettledBy 5 1 33 before ∧ completed 5 33 before middle = closed ∧
      (trace.any fun event => event.eventType == .runEnd) = closed := by
  obtain ⟨before, middle, path, checked⟩ := (started permissive ⟨1, 1⟩).exists_path (poll operations)
    (fun before middle => polled 6 33 middle && decide (middle.threads.length ≤ 7) && settled 5 33 before &&
      (completed 5 33 before middle == closed) &&
      (middle.replay? askTrace).any fun outcome => traced 7 33 closed outcome.2) ran
  simp only [Bool.and_eq_true, decide_eq_true_eq, beq_iff_eq] at checked
  obtain ⟨⟨⟨⟨answered, asked⟩, owner⟩, finished⟩, later⟩ := checked
  obtain ⟨after, pool, later, closing⟩ := middle.exists_path askTrace (fun _ pool => traced 7 33 closed pool) later
  obtain ⟨sent, response, answered, success, client⟩ := of_polled answered
  obtain ⟨sent', trace, returned, client', closing⟩ := of_traced closing
  exact ⟨before, middle, after, pool, sent, sent', response, trace, path, later, answered, success, asked, returned,
    client, client', of_settled owner, finished, closing⟩

end Scenario

/-- The client sees the run to be successful when its task has returned and lost no statement, and then gets a trace
that shows the end with this status. -/
theorem run_end_visible_served : ∃ before middle after pool, Path (started permissive ⟨1, 1⟩) before middle ∧
    Path middle after pool ∧ ∃ sent sent' response trace,
      middle.Returned 6 (.http (.getRun sent 33)) (.ok (.run response)) ∧ response.status = .success ∧
      middle.threads.length ≤ 7 ∧ pool.Returned 7 (.http (.getTrace sent' 33)) (.ok (.trace trace)) ∧
      RunSettledBy 5 1 33 before ∧ (∃ tenantId result, middle.Returned 5 (.executeRun tenantId 33) result) ∧
      (doneBy 5 before).any failed = false ∧ ShowsEnd trace .success ∧
        ∃ event ∈ before ++ after, Closes 1 33 event := by
  obtain ⟨before, middle, after, pool, sent, sent', response, trace, path, later, answered, success, asked, returned,
    client, client', settled, finished, _⟩ := polls 19 true (by decide +kernel)
  obtain ⟨⟨tenantId, result, ended⟩, _, healthy⟩ := of_completed finished
  have terminal : response.status.terminal = true := by rw [success]; rfl
  obtain ⟨_, earlier, c, rows, rest, now, rfl, until_now, visible, exactly⟩ :=
    run_end_visible path later answered terminal asked returned client client'
  have delivered : Delivered 5 1 33 before middle := .inr ⟨⟨_, result, ended⟩, healthy⟩
  have shown := visible 5 settled (delivered.later until_now)
  obtain ⟨event, member, closes⟩ := exactly.mp shown
  refine ⟨before, middle, _, pool, path, later, sent, sent', response, trace, answered, success, asked, returned,
    settled, ⟨tenantId, result, ended⟩, healthy, success ▸ shown, event, ?_, closes⟩
  rw [← List.append_assoc]
  exact List.mem_append_left _ member

/-- A client that polls between the two statements sees a successful run and asks for its trace, which
does not contain a `run_end` event. -/
theorem run_end_missing : ∃ before middle after pool, Path (started permissive ⟨1, 1⟩) before middle ∧
    Path middle after pool ∧ ∃ sent sent' response trace,
      middle.Returned 6 (.http (.getRun sent 33)) (.ok (.run response)) ∧ response.status = .success ∧
      middle.threads.length ≤ 7 ∧ pool.Returned 7 (.http (.getTrace sent' 33)) (.ok (.trace trace)) ∧
      ∀ event ∈ trace, event.eventType ≠ .runEnd := by
  obtain ⟨before, middle, after, pool, sent, sent', response, trace, path, later, answered, success, asked, returned,
    _, _, _, _, closing⟩ := polls 16 false (by decide +kernel)
  refine ⟨before, middle, after, pool, path, later, sent, sent', response, trace, answered,
    success, asked, returned, ?_⟩
  simpa using closing

end AgentPlatform
