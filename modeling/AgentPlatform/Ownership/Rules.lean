import AgentPlatform.Ownership.Server

/-! # Rules for the operations

One rule for each kind of operation, in the form in which the verification of a handler uses it:
what the thread knows is given as a predicate that the other threads cannot falsify, and the rule
asks for the continuation after each possible answer.
-/

set_option autoImplicit false

namespace AgentPlatform

open Interleaving Relational Database

variable {lib : Libraries} {config : Config} {task : Task} {claim : Set Token}
  {permits : List SemaphoreRef} {w : World} {past : List (Performed signature)}

/-! ## Knowledge -/

/-- Knowledge about committed rows that lasts, whoever makes the next step. -/
def Lasting (Q : Store → Prop) : Prop := ∀ ⦃before after : Store⦄, before.Evolves after → Q before → Q after

/-- Knowledge that lasts as long as nobody else touches the claim. -/
def Persistent (lib : Libraries) (claim : Set Token) (P : World → Prop) : Prop :=
  ∀ ⦃before after : World⦄, Valid lib before → Valid lib after → before.db.store.Evolves after.db.store →
    (∀ token ∈ claim, token.Same before after) → P before → P after

theorem Lasting.persistent {Q : Store → Prop} (lasting : Lasting Q) :
    Persistent lib claim fun w => Q w.db.store :=
  fun _ _ _ _ evolves _ known => lasting evolves known

theorem Lasting.and {Q Q' : Store → Prop} (left : Lasting Q) (right : Lasting Q') :
    Lasting fun s => Q s ∧ Q' s :=
  fun _ _ evolves known => ⟨left evolves known.1, right evolves known.2⟩

theorem Lasting.trivial : Lasting fun _ => True := fun _ _ _ _ => True.intro

theorem Persistent.and {P P' : World → Prop} (left : Persistent lib claim P)
    (right : Persistent lib claim P') : Persistent lib claim fun w => P w ∧ P' w :=
  fun _ _ valid valid' evolves same known =>
    ⟨left valid valid' evolves same known.1, right valid valid' evolves same known.2⟩

/-- As an assertion of the threads with this claim, such knowledge is stable. -/
theorem Persistent.stable {P : World → Prop} (persistent : Persistent lib claim P) :
    (ownership lib config).Stable fun claim' _ w _ => claim' = claim ∧ P w := by
  rintro _ owned before after past ⟨rfl, known⟩ step
  exact ⟨rfl, persistent step.before step.after step.evolves step.same known⟩

theorem lasting_actsFor (tenantId : Uuid) : Lasting fun s => task.ActsFor lib s tenantId :=
  fun _ _ evolves acts => acts.mono evolves.apiKeys

/-- The stage of a run in the claim. -/
theorem persistent_inStage {request : RunRow} {stage : Stage} (owner : Token.run request.id ∈ claim) :
    Persistent lib claim fun w => InStage lib w request stage := by
  rintro before after _ _ evolves same ⟨run, present, asked, sound⟩
  have kept : SameRun request.id before.db after.db := same _ owner
  exact ⟨run, (kept.mem asked.id).mpr present, asked, sound.keep evolves (asked.id ▸ kept)⟩

/-- A thread that is done, with what it still knows then. -/
theorem safe_done {ε α : Type} {post : Except ε α → (ownership lib config).Assertion} {result : Except ε α}
    {P : World → Prop} (persistent : Persistent lib claim P) (known : P w)
    (holds : ∀ t, P t → post result claim permits t past) :
    (ownership lib config).Safe task post (.done result) claim permits w past :=
  Discipline.Safe.done persistent.stable ⟨rfl, known⟩ fun t still => holds t still.2

/-! ## Statements -/

/-- The world after a statement, as its effect. -/
def sqlEffect (w : World) (permits : List SemaphoreRef) (db : Database) {statement : Statement}
    (answer : Except SqlxError statement.Row) :
    Effect signature (List SemaphoreRef) World Task (.sql statement) := ⟨answer, permits, { w with db }, none⟩

/-- A statement is permitted if it is used properly, writes only what the thread owns, and leaves
the run it writes in some stage. -/
theorem permits_sql {statement : Statement} {c : Choice} {answer : Except SqlxError statement.Row}
    {db : Database} {kept : Set Token} (valid : Valid lib w)
    (ran : Executed c w.db statement answer db) (proper : w.db.Proper statement)
    (may : MayHold lib task w.db.store permits) (claims : task.Claims kept)
    (ownsRun : ∀ runId, writtenRun statement = some runId → Token.run runId ∈ claim)
    (ownsTransaction : ∀ tx, statement.transaction? = some tx → Token.transaction tx ∈ claim)
    (keptLives : ∀ token ∈ kept, token.Lives { w with db })
    (keptFrom : ∀ token ∈ kept, token ∈ claim ∨ ¬ token.Lives w)
    (sound : ∀ run ∈ db.store.runs, (¬ Token.Lives w (.run run.id) ∨ writtenRun statement = some run.id) →
      ∃ stage, run.Sound lib db.store stage)
    (acts : ∀ tenantId, statement.tenant? = some tenantId → task.ActsFor lib w.db.store tenantId)
    (commits : ∀ tx, statement = .commit tx →
      ∃ tenantId, task.ActsFor lib w.db.store tenantId ∧ w.db.InsertedFor tx tenantId)
    (affected : ∀ count, affectedRuns ⟨.sql statement, answer⟩ = some count → count = 1) :
    (ownership lib config).Permits task claim w past (sqlEffect w permits db answer) kept := by
  have evolves : w.db.store.Evolves db.store := valid.wellFormed.evolves proper ran
  refine ⟨by rintro token ⟨tx, inside, rfl⟩; exact ownsTransaction tx inside,
    ⟨valid.wellFormed.executed proper ran, ?_⟩, evolves, ?_, keptLives, keptFrom,
    ⟨claims, may.mono evolves.apiKeys⟩, ⟨?_, affected⟩, fun _ spawned => by cases spawned⟩
  · intro run present
    by_cases foreign : Token.Lives w (.run run.id) ∧ writtenRun statement ≠ some run.id
    · have same := valid.wellFormed.sameRun ran foreign.1 foreign.2
      obtain ⟨stage, before⟩ := valid.runs run ((same.mem rfl).mp present)
      exact ⟨stage, before.keep evolves same⟩
    · exact sound run present (by tauto)
  · intro token lives foreign
    cases token with
    | run runId => exact valid.wellFormed.sameRun ran lives fun written => foreign (ownsRun runId written)
    | transaction tx => exact sameTransaction ran lives fun inside => foreign (ownsTransaction tx inside)
  · intro tenantId stranger
    apply ofTenant_executed ran (fun restricted => stranger (acts tenantId restricted))
    intro tx commit
    obtain ⟨owner, acting, inserted⟩ := commits tx commit
    exact ⟨owner, fun same => stranger (same ▸ acting), inserted⟩

/-- The statements that touch neither a run nor a transaction. -/
def unowned : Statement → Bool
  | .createTenant .. | .createApiKey .. | .findActiveApiKeyByPrefix .. | .createTool .. | .listTools .. |
    .deleteTool .. | .getAgent .. | .getAgentToolIds .. | .getRun .. | .getTrace .. | .getTool .. |
    .listAgentTools .. | .findUnboundActiveTool .. => true
  | _ => false

/-- Only a commit adds runs. -/
theorem old_run {c : Choice} {db db' : Database} {statement : Statement}
    {answer : Except SqlxError statement.Row} (ran : Executed c db statement answer db')
    (adds_none : ∀ tx, statement ≠ .commit tx) {run : RunRow} (present : run ∈ db'.store.runs) :
    ∃ before ∈ db.store.runs, before.id = run.id := by
  have updated {selected : RunRow → Bool} {update : RunRow → RunRow}
      (present : run ∈ (db.updateRuns selected update).2.store.runs)
      (keeps : ∀ row, (update row).id = row.id) : ∃ before ∈ db.store.runs, before.id = run.id := by
    obtain ⟨before, member, rfl⟩ := List.mem_map.mp present
    refine ⟨before, member, ?_⟩
    split
    · exact (keeps before).symm
    · rfl
  cases ran with
  | unavailable failing => rw [lose_store] at present; exact ⟨run, present, rfl⟩
  | commit found alive => exact absurd rfl (adds_none _)
  | markRunFailed => exact updated present fun _ => rfl
  | beginRunExecution => exact updated present fun _ => rfl
  | finalizeRun => exact updated present fun _ => rfl
  | _ => exact ⟨run, present, rfl⟩

theorem written_of_affected {statement : Statement} {answer : Except SqlxError statement.Row} {count : ℕ}
    (found : affectedRuns ⟨.sql statement, answer⟩ = some count) : writtenRun statement ≠ none := by
  unfold affectedRuns at found
  split at found
  · next same => cases (Performed.mk.inj same).1; exact nofun
  · next same => cases (Performed.mk.inj same).1; exact nofun
  · cases found

section Rules

variable {ε α : Type} {post : Except ε α → (ownership lib config).Assertion} {statement : Statement}
  {next : Except SqlxError statement.Row → Program signature ε α}

/-- The rule for a statement in terms of what it can do. -/
theorem safe_sql {P : World → Prop} (persistent : Persistent lib claim P) (known : P w)
    (rule : ∀ t c answer db, P t → Valid lib t → (∀ token ∈ claim, token.Lives t) → task.Claims claim →
      MayHold lib task t.db.store permits → Executed c t.db statement answer db →
      ∃ kept, (ownership lib config).Permits task claim t past (sqlEffect t permits db answer) kept ∧
        (ownership lib config).Safe task post (next answer) kept permits { t with db }
          (past ++ [⟨.sql statement, answer⟩])) :
    (ownership lib config).Safe task post (.call (.sql statement) next) claim permits w past := by
  apply Discipline.Safe.call persistent.stable ⟨rfl, known⟩
  rintro t ⟨_, now⟩ valid lives holding c effect ran
  obtain ⟨⟨answer, db⟩, executes, rfl⟩ := Option.map_eq_some_iff.mp ran
  exact rule t c answer db now valid lives holding.1 holding.2 (executed executes)

/-- A statement that touches neither a run nor a transaction: all knowledge persists. -/
theorem safe_unowned {P : World → Prop} (free : unowned statement = true)
    (persistent : Persistent lib claim P) (known : P w)
    (acts : ∀ w, P w → ∀ tenantId, statement.tenant? = some tenantId → task.ActsFor lib w.db.store tenantId)
    (rest : ∀ before after c answer, P before → P after → Valid lib before → Valid lib after →
      Executed c before.db statement answer after.db →
      (ownership lib config).Safe task post (next answer) claim permits after
        (past ++ [⟨.sql statement, answer⟩])) :
    (ownership lib config).Safe task post (.call (.sql statement) next) claim permits w past := by
  have written : writtenRun statement = none := by cases statement <;> first | rfl | cases free
  have outside : statement.transaction? = none := by cases statement <;> first | rfl | cases free
  apply safe_sql persistent known
  intro t c answer db now valid lives claims may ran
  have same (token : Token) (owns : token ∈ claim) : token.Same t { t with db } := by
    cases token with
    | run runId => exact valid.wellFormed.sameRun ran (lives _ owns) (by simp [written])
    | transaction tx => exact sameTransaction ran (lives _ owns) (by simp [outside])
  have permitted : (ownership lib config).Permits task claim t past (sqlEffect t permits db answer) claim := by
    refine permits_sql valid ran ?_ may claims ?_ ?_ (fun token owns => (lives token owns).same (same token owns))
      (fun token owns => .inl owns) ?_ (acts t now) ?_ ?_
    · cases statement <;> first | exact True.intro | cases free
    · simp [written]
    · simp [outside]
    · intro run present dead
      simp only [written, reduceCtorEq, or_false] at dead
      exact absurd (old_run ran (by rintro tx rfl; cases free) present) dead
    · rintro tx rfl; cases free
    · exact fun count found => absurd written (written_of_affected found)
  exact ⟨claim, permitted, rest t _ c answer now
    (persistent valid permitted.valid permitted.evolves same now) valid permitted.valid ran⟩

/-! ### Writing a run -/

theorem Valid.unique {w : World} (valid : Valid lib w) {run other : RunRow} (left : run ∈ w.db.store.runs)
    (right : other ∈ w.db.store.runs) (same : other.id = run.id) : other = run :=
  valid.wellFormed.runs.ids.committed.eq right left rfl (congrArg some same.symm)

/-- A statement outside transactions that reports an error has no effect. -/
theorem unchanged_of_error {c : Choice} {db db' : Database} {error : SqlxError}
    (outside : statement.transaction? = none) (ran : Executed c db statement (.error error) db') :
    db' = db := by
  generalize failed : Except.error error = answer at ran
  cases ran with
  | unavailable failing => simp [Database.lose, outside]
  | noTransaction inside absent => rfl
  | inFailed inside found aborted => rfl
  | violated outside healthy => rfl
  | violatedWithin inside found alive healthy => simp [outside] at inside
  | _ => cases failed

theorem affectedRuns_error {error : SqlxError} : affectedRuns ⟨.sql statement, .error error⟩ = none := by
  cases statement <;> rfl

/-- A statement that writes a run of the claim takes it to the next stage, or fails without
effect. -/
theorem safe_writeRun {Q : Store → Prop} {request : RunRow} {stage later : Stage} {one : statement.Row}
    (owner : Token.run request.id ∈ claim) (written : writtenRun statement = some request.id)
    (outside : statement.transaction? = none) (tenant : statement.tenant? = some request.tenantId)
    (lasting : Lasting Q) (known : Q w.db.store) (now : InStage lib w request stage)
    (acts : ∀ s, Q s → task.ActsFor lib s request.tenantId)
    (proper : ∀ t, Valid lib t → InStage lib t request stage → t.db.Proper statement)
    (outcome : ∀ t c row db, Valid lib t → Q t.db.store → InStage lib t request stage →
      Executed c t.db statement (.ok row) db → t.db.store.Evolves db.store →
      row = one ∧ (∀ count, affectedRuns ⟨.sql statement, .ok row⟩ = some count → count = 1) ∧
        InStage lib { t with db } request later)
    (ok : ∀ t, Q t.db.store → InStage lib t request later →
      (ownership lib config).Safe task post (next (.ok one)) claim permits t
        (past ++ [⟨.sql statement, .ok one⟩]))
    (error : ∀ t error, Q t.db.store → InStage lib t request stage →
      (ownership lib config).Safe task post (next (.error error)) claim permits t
        (past ++ [⟨.sql statement, .error error⟩])) :
    (ownership lib config).Safe task post (.call (.sql statement) next) claim permits w past := by
  refine safe_sql (lasting.persistent.and (persistent_inStage owner)) ⟨known, now⟩
    fun t c answer db ⟨knows, stands⟩ valid lives claims may ran => ?_
  have evolves := valid.wellFormed.evolves (proper t valid stands) ran
  have alive (token : Token) (owns : token ∈ claim) : token.Lives { t with db } := by
    cases token with
    | run runId =>
      obtain ⟨run, present, rfl⟩ := lives _ owns
      obtain ⟨after, found, same⟩ := evolves.runs run present
      exact ⟨after, found, same.sameRequest.id⟩
    | transaction tx =>
      have same : (Token.transaction tx).Same t { t with db } :=
        sameTransaction ran (lives _ owns) (by simp [outside])
      exact (lives _ owns).same same
  -- whatever stage the statement leads to, it is permitted
  have permitted {reached : Stage} (stands : InStage lib { t with db } request reached)
      (affected : ∀ count, affectedRuns ⟨.sql statement, answer⟩ = some count → count = 1) :
      (ownership lib config).Permits task claim t past (sqlEffect t permits db answer) claim := by
    refine permits_sql valid ran (proper t valid ‹_›) may claims ?_ (by simp [outside]) alive
      (fun token owns => .inl owns) ?_ ?_ ?_ affected
    · intro runId found
      rw [written] at found
      cases found
      exact owner
    · intro run present mine
      have same : run.id = request.id := by
        rcases mine with dead | mine
        · exact absurd (old_run ran (by rintro tx rfl; cases outside) present) dead
        · exact Option.some.inj (mine.symm.trans written)
      obtain ⟨after, found, asked, sound⟩ := stands
      have unique := (valid.wellFormed.executed (proper t valid ‹_›) ran).runs.ids.committed.eq present found rfl
        (congrArg some (asked.id.trans same.symm))
      exact ⟨reached, unique ▸ sound⟩
    · intro tenantId found
      rw [tenant] at found
      cases found
      exact acts _ knows
    · rintro tx rfl; cases outside
  cases answer with
  | error fault =>
    obtain rfl := unchanged_of_error outside ran
    exact ⟨claim, permitted stands (by simp [affectedRuns_error]), error t fault knows stands⟩
  | ok row =>
    obtain ⟨rfl, affected, reached⟩ := outcome t c row db valid knows stands ran evolves
    exact ⟨claim, permitted reached affected, ok _ (lasting evolves knows) reached⟩

/-- Appending an event takes a run to the stage whose trace ends with it. -/
theorem safe_appendEvent (later : Stage) {Q : Store → Prop} {request : RunRow} {stage : Stage} {type : EventType}
    {payload : Value} {next : Except SqlxError Unit → Program signature ε α}
    (owner : Token.run request.id ∈ claim) (lasting : Lasting Q) (known : Q w.db.store)
    (now : InStage lib w request stage) (acts : ∀ s, Q s → task.ActsFor lib s request.tenantId)
    (moves : ∀ t maxIterations, Valid lib t → Q t.db.store → t.db.store.HasAgent request maxIterations →
      stage.Next maxIterations later)
    (columns : later.columns = stage.columns) (events : later.events = stage.events ++ [(type, payload)])
    (authorised : ∀ s, Q s → ∀ i round, later.rounds[i]? = some round → stage.rounds[i]? = some round ∨
      s.Authorised lib request.tenantId request.agentId round.tool (iterationArguments i) round.result)
    (ok : ∀ t, Q t.db.store → InStage lib t request later →
      (ownership lib config).Safe task post (next (.ok ())) claim permits t
        (past ++ [⟨.sql (.appendEvent request.tenantId request.id type payload), .ok ()⟩]))
    (error : ∀ t error, Q t.db.store → InStage lib t request stage →
      (ownership lib config).Safe task post (next (.error error)) claim permits t
        (past ++ [⟨.sql (.appendEvent request.tenantId request.id type payload), .error error⟩])) :
    (ownership lib config).Safe task post
      (.call (.sql (.appendEvent request.tenantId request.id type payload)) next) claim permits w past := by
  refine safe_writeRun owner rfl rfl rfl lasting known now acts (fun _ _ _ => True.intro) ?_ ok error
  rintro t c row db valid knows ⟨run, present, asked, sound⟩ ran evolves
  cases ran with
  | select healthy answered => cases answered
  | appendEvent new exists_run =>
    refine ⟨rfl, nofun, run, present, asked, sound.next evolves (.refl run) ?_ (sound.columns.later columns) ?_ ?_⟩
    · rintro maxIterations ⟨agent, found, tenantId, id, bound⟩
      exact moves t _ valid knows ⟨agent, found, tenantId.trans asked.tenantId, id.trans asked.agentId, bound⟩
    · rw [events, ← sound.events, Store.traceRows, List.filter_append, List.map_append]
      simp [Store.traceRows, asked.tenantId, asked.id, TraceRow.event]
    · rw [asked.tenantId, asked.agentId]
      exact authorised _ (lasting evolves knows)

/-- An update of a run by its key finds its row and takes it to the next stage. -/
theorem InStage.updated {request : RunRow} {stage later : Stage} {selected : RunRow → Bool}
    {update : RunRow → RunRow} (valid : Valid lib w) (now : InStage lib w request stage)
    (evolves : w.db.store.Evolves (w.db.updateRuns selected update).2.store)
    (selects : ∀ row : RunRow, request.SameRequest row → row.status = stage.status → selected row = true)
    (only : ∀ row : RunRow, selected row = true → row.id = request.id)
    (keeps : ∀ row : RunRow, row.SameRequest (update row))
    (moves : ∀ maxIterations, w.db.store.HasAgent request maxIterations → stage.Next maxIterations later)
    (columns : ∀ row : RunRow, row.Shows stage → (update row).Shows later)
    (events : later.events = stage.events) (rounds : later.rounds = stage.rounds) :
    (w.db.updateRuns selected update).1 = .ok 1 ∧
      InStage lib { w with db := (w.db.updateRuns selected update).2 } request later := by
  obtain ⟨run, present, asked, sound⟩ := now
  have chosen : selected run = true := selects run asked sound.columns.status
  constructor
  · refine congrArg Except.ok (valid.wellFormed.runs.ids.committed.countP_eq_one present fun other member => ?_)
    constructor
    · exact fun hit => (only other hit).trans asked.id.symm
    · intro same
      rw [valid.unique present member same]
      exact chosen
  · refine ⟨update run, ?_, ?_, sound.next evolves (keeps run) ?_ (columns run sound.columns) ?_ ?_⟩
    · refine List.mem_map.mpr ⟨run, present, ?_⟩
      rw [if_pos chosen]
    · have kept := keeps run
      exact ⟨kept.id.trans asked.id, kept.tenantId.trans asked.tenantId, kept.agentId.trans asked.agentId,
        kept.inputMessages.trans asked.inputMessages, kept.idempotencyKey.trans asked.idempotencyKey,
        kept.createdAt.trans asked.createdAt⟩
    · rintro maxIterations ⟨agent, found, tenantId, id, bound⟩
      exact moves _ ⟨agent, found, tenantId.trans asked.tenantId, id.trans asked.agentId, bound⟩
    · rw [events]; exact sound.events
    · rw [rounds]; exact fun _ _ found => .inl found

section Updates

variable {Q : Store → Prop} {request : RunRow} {stage later : Stage}
  {next : Except SqlxError ℕ → Program signature ε α}

private theorem sameKey {row : RunRow} : (row.tenantId == request.tenantId && row.id == request.id) = true ↔
    row.tenantId = request.tenantId ∧ row.id = request.id := by
  simp

/-- The row that an update by the key of a request selects is the row of that request. -/
private theorem InStage.selected {t : World} (valid : Valid lib t) (now : InStage lib t request stage) :
    ∀ row ∈ t.db.store.runs, row.tenantId = request.tenantId → row.id = request.id → row.status = stage.status := by
  intro row present _ id
  obtain ⟨run, found, asked, sound⟩ := now
  rw [valid.unique found present (id.trans asked.id.symm)]
  exact sound.columns.status

/-- `mark_run_failed` refuses an announced run. -/
theorem safe_markRunFailed {reason : String} (capacity : reason ∈ capacityReasons)
    (owner : Token.run request.id ∈ claim) (lasting : Lasting Q) (known : Q w.db.store)
    (now : InStage lib w request .announced) (acts : ∀ s, Q s → task.ActsFor lib s request.tenantId)
    (ok : ∀ t, Q t.db.store → InStage lib t request (.refused reason) →
      (ownership lib config).Safe task post (next (.ok 1)) claim permits t
        (past ++ [⟨.sql (.markRunFailed request.tenantId request.id reason), .ok 1⟩]))
    (error : ∀ t error, Q t.db.store → InStage lib t request .announced →
      (ownership lib config).Safe task post (next (.error error)) claim permits t
        (past ++ [⟨.sql (.markRunFailed request.tenantId request.id reason), .error error⟩])) :
    (ownership lib config).Safe task post
      (.call (.sql (.markRunFailed request.tenantId request.id reason)) next) claim permits w past := by
  refine safe_writeRun owner rfl rfl rfl lasting known now acts
    (fun t valid stands => stands.selected valid) ?_ ok error
  intro t c row db valid knows stands ran evolves
  generalize same : Except.ok row = answer at ran
  cases ran with
  | markRunFailed =>
    obtain ⟨count, reached⟩ := stands.updated valid evolves
      (fun row asked status => sameKey.mpr ⟨asked.tenantId, asked.id⟩) (fun row hit => (sameKey.mp hit).2)
      (fun row => ⟨rfl, rfl, rfl, rfl, rfl, rfl⟩) (fun _ _ => .refuse capacity)
      (fun row columns => ⟨rfl, columns.finalAnswer, rfl, columns.started, rfl⟩) rfl rfl
    have affected := Except.ok.inj count
    exact ⟨(Except.ok.inj same).trans affected, fun _ found => (Option.some.inj found).symm.trans affected, reached⟩
  | select healthy answered => cases answered
  | _ => cases same

/-- `begin_run_execution` starts an announced run. -/
theorem safe_beginRunExecution
    (owner : Token.run request.id ∈ claim) (lasting : Lasting Q) (known : Q w.db.store)
    (now : InStage lib w request .announced) (acts : ∀ s, Q s → task.ActsFor lib s request.tenantId)
    (ok : ∀ t, Q t.db.store → InStage lib t request .started →
      (ownership lib config).Safe task post (next (.ok 1)) claim permits t
        (past ++ [⟨.sql (.beginRunExecution request.tenantId request.id), .ok 1⟩]))
    (error : ∀ t error, Q t.db.store → InStage lib t request .announced →
      (ownership lib config).Safe task post (next (.error error)) claim permits t
        (past ++ [⟨.sql (.beginRunExecution request.tenantId request.id), .error error⟩])) :
    (ownership lib config).Safe task post
      (.call (.sql (.beginRunExecution request.tenantId request.id)) next) claim permits w past := by
  refine safe_writeRun owner rfl rfl rfl lasting known now acts (fun _ _ _ => True.intro) ?_ ok error
  intro t c row db valid knows stands ran evolves
  generalize same : Except.ok row = answer at ran
  cases ran with
  | beginRunExecution =>
    obtain ⟨count, reached⟩ := stands.updated valid evolves
      (fun row asked status => by simp [asked.id, asked.tenantId, status, Stage.status])
      (fun row hit => by simp_all) (fun row => ⟨rfl, rfl, rfl, rfl, rfl, rfl⟩) (fun _ _ => .start)
      (fun row columns => ⟨rfl, columns.finalAnswer, columns.errorReason, rfl, columns.finished⟩) rfl rfl
    exact ⟨Except.ok.inj (same.trans count), nofun, reached⟩
  | select healthy answered => cases answered
  | _ => cases same

/-- `finalize_run` settles a running run. -/
theorem safe_finalizeRun {rounds : List Round} {decision : Option LlmDecision} {verdict : Verdict}
    (owner : Token.run request.id ∈ claim) (lasting : Lasting Q) (known : Q w.db.store)
    (now : InStage lib w request stage) (acts : ∀ s, Q s → task.ActsFor lib s request.tenantId)
    (running : stage.status = .running) (started : stage.hasStarted = true)
    (moves : ∀ t maxIterations, Valid lib t → Q t.db.store → t.db.store.HasAgent request maxIterations →
      stage.Next maxIterations (.settled rounds decision verdict))
    (events : stage.events = Stage.loopEvents rounds decision) (sameRounds : stage.rounds = rounds)
    (ok : ∀ t, Q t.db.store → InStage lib t request (.settled rounds decision verdict) →
      (ownership lib config).Safe task post (next (.ok 1)) claim permits t
        (past ++ [⟨.sql (.finalizeRun request.tenantId request.id verdict.status verdict.finalAnswer
          verdict.errorReason), .ok 1⟩]))
    (error : ∀ t error, Q t.db.store → InStage lib t request stage →
      (ownership lib config).Safe task post (next (.error error)) claim permits t
        (past ++ [⟨.sql (.finalizeRun request.tenantId request.id verdict.status verdict.finalAnswer
          verdict.errorReason), .error error⟩])) :
    (ownership lib config).Safe task post
      (.call (.sql (.finalizeRun request.tenantId request.id verdict.status verdict.finalAnswer
        verdict.errorReason)) next) claim permits w past := by
  have terminal : verdict.status.terminal = true := by cases verdict <;> rfl
  refine safe_writeRun owner rfl rfl rfl lasting known now acts ?_ ?_ ok error
  · intro t valid stands
    refine ⟨terminal, fun row present tenantId id => ?_⟩
    rw [stands.selected valid row present tenantId id, running]
  · intro t c row db valid knows stands ran evolves
    generalize same : Except.ok row = answer at ran
    cases ran with
    | finalizeRun =>
      obtain ⟨count, reached⟩ := stands.updated valid evolves
        (fun row asked status => sameKey.mpr ⟨asked.tenantId, asked.id⟩) (fun row hit => (sameKey.mp hit).2)
        (fun row => ⟨rfl, rfl, rfl, rfl, rfl, rfl⟩) (fun maxIterations => moves t maxIterations valid knows)
        (fun row columns => ⟨rfl, rfl, rfl, columns.started.trans started, terminal.symm⟩) events.symm sameRounds.symm
      have affected := Except.ok.inj count
      exact ⟨(Except.ok.inj same).trans affected, fun _ found => (Option.some.inj found).symm.trans affected,
        reached⟩
    | select healthy answered => cases answered
    | _ => cases same

end Updates

end Rules

/-! ## Permits and tasks -/

section Quiet

variable {ε α : Type} {post : Except ε α → (ownership lib config).Assertion} {op : Op}
  {next : op.Answer → Program signature ε α}

/-- The operations that leave the database alone. -/
def Op.quiet : Op → Bool
  | .sql _ | .rollback _ => false
  | _ => true

theorem affectedRuns_quiet {answer : op.Answer} (quiet : op.quiet = true) : affectedRuns ⟨op, answer⟩ = none := by
  cases op with
  | sql statement => cases quiet
  | _ => rfl

theorem names_quiet (quiet : op.quiet = true) (token : Token) : ¬ op.Names token := by
  cases op with
  | sql statement => cases quiet
  | rollback tx => cases quiet
  | _ => exact id

theorem Valid.of_db {w w' : World} (valid : Valid lib w) (same : w'.db = w.db) : Valid lib w' :=
  ⟨same ▸ valid.wellFormed, by rw [same]; exact valid.runs⟩

theorem Token.Same.of_db {w w' : World} (same : w'.db = w.db) (token : Token) : token.Same w w' := by
  cases token with
  | run runId => rw [Token.Same, same]; exact .refl _ _
  | transaction tx => rw [Token.Same, same]; exact .refl _ _

/-- The rule for such an operation, unless it starts a task. -/
theorem safe_quiet {P : World → Prop} (persistent : Persistent lib claim P) (known : P w)
    (quiet : op.quiet = true)
    (rule : ∀ t c effect, P t → MayHold lib task t.db.store permits →
      Op.exec config Task.executeRun c op permits t = some effect →
      effect.shared.db = t.db ∧ effect.spawned = none ∧ MayHold lib task t.db.store effect.owned ∧
        (P effect.shared → (ownership lib config).Safe task post (next effect.answer) claim effect.owned
          effect.shared (past ++ [⟨op, effect.answer⟩]))) :
    (ownership lib config).Safe task post (.call op next) claim permits w past := by
  apply Discipline.Safe.call persistent.stable ⟨rfl, known⟩
  rintro t ⟨_, now⟩ valid lives holding c effect ran
  obtain ⟨same, alone, may, rest⟩ := rule t c effect now holding.2 ran
  have valid' := valid.of_db same
  have evolves : t.db.store.Evolves effect.shared.db.store := by rw [same]; exact .refl _
  refine ⟨claim, ⟨fun token named => absurd named (names_quiet quiet token), valid', evolves, fun token _ _ =>
    .of_db same token, fun token owns => (lives token owns).same (.of_db same token), fun token owns => .inl owns,
    ⟨holding.1, may.mono evolves.apiKeys⟩, ⟨?_, ?_⟩, ?_⟩, rest (persistent valid valid' evolves
      (fun token _ => .of_db same token) now)⟩
  · intro tenantId _; rw [same]
  · exact fun count found => nomatch (affectedRuns_quiet quiet).symm.trans found
  · intro started spawned; rw [alone] at spawned; cases spawned

/-- Spawning the task of an announced run hands it over together with both permits. -/
theorem safe_spawn {request : RunRow} {next : Unit → Program signature ε α}
    (http : ∃ request, task = .http request) (now : InStage lib w request .announced)
    (rest : ∀ t, (ownership lib config).Safe task post (next ()) ∅ [] t
      (past ++ [⟨.spawn request.tenantId request.id, ()⟩])) :
    (ownership lib config).Safe task post (.call (.spawn request.tenantId request.id) next)
      {.run request.id} [.global, .tenant request.tenantId] w past := by
  apply Discipline.Safe.call (persistent_inStage (Set.mem_singleton _)).stable ⟨rfl, now⟩
  rintro t ⟨_, stands⟩ valid lives holding c effect ran
  cases ran
  obtain ⟨received, rfl⟩ := http
  refine ⟨∅, ⟨nofun, valid, .refl _, fun token _ _ => .of_db rfl token, by simp, by simp, ⟨True.intro, .nothing⟩,
    ⟨fun _ _ => rfl, nofun⟩, ?_⟩, rest t⟩
  rintro started ⟨⟩
  exact ⟨{.run request.id}, ⟨rfl, rfl, request, rfl, rfl, stands⟩, ⟨Set.mem_singleton _, .both rfl⟩, lives,
    fun token owns => .inl owns, by simp⟩

end Quiet

end AgentPlatform
