import AgentPlatform.Ownership.Rules

/-! # Rules for transactions

The thread that opened a transaction knows its uncommitted rows. After an error nothing is left of
them, and the transaction stays aborted until its owner drops it. A commit turns the uncommitted
runs into runs that the thread owns.
-/

set_option autoImplicit false

namespace AgentPlatform

open Interleaving Relational Database

variable {lib : Libraries} {config : Config} {task : Task} {claim : Set Token}
  {permits : List SemaphoreRef} {w : World} {past : List (Performed signature)}

/-- What a thread knows about its open transaction: whether it is aborted, and its rows. -/
structure InTransaction (w : World) (tx : Uuid) (aborted : Bool) (agents : List AgentRow)
    (agentTools : List AgentToolRow) (runs : List RunRow) : Prop where
  found : ∃ transaction, w.db.findTransaction tx = some transaction ∧ transaction.aborted = aborted
  agents : own tx w.db.pendingAgents = agents
  agentTools : own tx w.db.pendingAgentTools = agentTools
  runs : own tx w.db.pendingRuns = runs

theorem persistent_inTransaction {tx : Uuid} {aborted : Bool} {agents : List AgentRow}
    {agentTools : List AgentToolRow} {runs : List RunRow} (owner : Token.transaction tx ∈ claim) :
    Persistent lib claim fun w => InTransaction w tx aborted agents agentTools runs := by
  intro before after _ _ _ same known
  obtain ⟨entry, sameAgents, sameAgentTools, sameRuns⟩ : SameTransaction tx before.db after.db := same _ owner
  exact ⟨by rw [entry]; exact known.found, sameAgents.trans known.agents,
    sameAgentTools.trans known.agentTools, sameRuns.trans known.runs⟩

section Transactions

variable {ε α : Type} {post : Except ε α → (ownership lib config).Assertion} {statement : Statement}
  {next : Except SqlxError statement.Row → Program signature ε α} {Q : Store → Prop} {tx tenantId : Uuid}
  {aborted : Bool} {agents : List AgentRow} {agentTools : List AgentToolRow} {runs : List RunRow}

theorem InTransaction.abort (known : InTransaction w tx aborted agents agentTools runs) :
    InTransaction { w with db := w.db.abort tx } tx true [] [] [] := by
  obtain ⟨transaction, found, _⟩ := known.found
  refine ⟨⟨{ transaction with aborted := true }, ?_, rfl⟩, own_without_self, own_without_self, own_without_self⟩
  change (w.db.abort tx).findTransaction tx = _
  rw [findTransaction_abort, if_pos rfl, found]
  rfl

/-- A new transaction is alive and empty. -/
theorem InTransaction.begun (valid : Valid lib w) (startedAt : Timestamp) (new : w.db.findTransaction tx = none) :
    InTransaction { w with db := { w.db with transactions := w.db.transactions ++ [(tx, ⟨startedAt, false⟩)] } } tx
      false [] [] [] := by
  have absent {α : Type} {pending : List (Uuid × α)}
      (opened : ∀ tx row, (tx, row) ∈ pending → (w.db.findTransaction tx).isSome) : own tx pending = [] := by
    apply List.eq_nil_iff_forall_not_mem.mpr
    intro row member
    simpa [new] using opened tx row (mem_own.mp member)
  refine ⟨⟨⟨startedAt, false⟩, ?_, rfl⟩, absent valid.wellFormed.pending.agents,
    absent valid.wellFormed.pending.agentTools, absent valid.wellFormed.pending.runs⟩
  change (w.db.transactions ++ [(tx, _)]).lookup tx = _
  rw [List.lookup_append, ← findTransaction, new]
  simp

/-- Opening a transaction. -/
theorem safe_begin {next : Except SqlxError Uuid → Program signature ε α} (http : ∃ request, task = .http request)
    (lasting : Lasting Q) (known : Q w.db.store)
    (ok : ∀ t tx, Q t.db.store → InTransaction t tx false [] [] [] →
      (ownership lib config).Safe task post (next (.ok tx)) {.transaction tx} permits t
        (past ++ [⟨.sql .begin, .ok tx⟩]))
    (error : ∀ t error, Q t.db.store → (ownership lib config).Safe task post (next (.error error)) ∅ permits t
      (past ++ [⟨.sql .begin, .error error⟩])) :
    (ownership lib config).Safe task post (.call (.sql .begin) next) ∅ permits w past := by
  apply safe_sql lasting.persistent known
  intro t c answer db knows valid lives claims may ran
  obtain ⟨received, rfl⟩ := http
  cases answer with
  | error fault =>
    obtain rfl := unchanged_of_error rfl ran
    refine ⟨∅, permits_sql valid ran True.intro may True.intro nofun nofun nofun nofun ?_ nofun nofun nofun,
      error t fault knows⟩
    intro run present dead
    exact absurd ⟨run, present, rfl⟩ (dead.resolve_right nofun)
  | ok handle =>
    cases ran with
    | select healthy answered => cases answered
    | begin new =>
      have begun := InTransaction.begun valid c.now new
      obtain ⟨transaction, found, _⟩ := begun.found
      refine ⟨{.transaction c.id}, permits_sql valid (.begin new) True.intro may True.intro nofun nofun ?_ ?_ ?_
        nofun nofun nofun, ok _ c.id knows begun⟩
      · rintro token rfl
        exact Option.isSome_iff_exists.mpr ⟨transaction, found⟩
      · rintro token rfl
        exact .inr (by simp [Token.Lives, new])
      · intro run present dead
        exact absurd ⟨run, present, rfl⟩ (dead.resolve_right (by simp [writtenRun]))

/-- An error leaves an aborted transaction behind. -/
theorem InTransaction.of_error {c : Choice} {db : Database} {fault : SqlxError}
    (inside : statement.transaction? = some tx)
    (known : InTransaction w tx aborted agents agentTools runs)
    (empty : aborted = true → agents = [] ∧ agentTools = [] ∧ runs = [])
    (ran : Executed c w.db statement (.error fault) db) : InTransaction { w with db } tx true [] [] [] := by
  obtain ⟨transaction, found, state⟩ := known.found
  generalize failed : Except.error fault = answer at ran
  cases ran with
  | unavailable failing =>
    rw [Database.lose, inside]
    exact known.abort
  | noTransaction inside' absent =>
    cases inside.symm.trans inside'
    cases found.symm.trans absent
  | inFailed inside' found' dead =>
    cases inside.symm.trans inside'
    cases found.symm.trans found'
    obtain ⟨rfl, rfl, rfl⟩ := empty (state.symm.trans dead)
    exact ⟨⟨transaction, found, dead⟩, known.agents, known.agentTools, known.runs⟩
  | violated outside healthy => rw [inside] at outside; cases outside
  | violatedWithin inside' found' alive healthy =>
    cases inside.symm.trans inside'
    exact known.abort
  | _ => cases failed

/-- Only a commit closes a transaction. -/
theorem still_open {c : Choice} {db db' : Database} {answer : Except SqlxError statement.Row} {handle : Uuid}
    (ran : Executed c db statement answer db') (closes_none : ∀ tx, statement ≠ .commit tx)
    (present : (db.findTransaction handle).isSome) : (db'.findTransaction handle).isSome := by
  cases ran with
  | unavailable failing =>
    unfold Database.lose
    split
    · rwa [isSome_findTransaction_abort]
    · exact present
  | violatedWithin inside found alive healthy => rwa [isSome_findTransaction_abort]
  | begin new =>
    rw [findTransaction]
    rwa [findTransaction_begin present]
  | commitAborted found dead => exact absurd rfl (closes_none _)
  | commit found alive => exact absurd rfl (closes_none _)
  | _ => exact present

/-- A statement inside a transaction that is neither opened nor closed by it. -/
theorem safe_inside (http : ∃ request, task = .http request) (inside : statement.transaction? = some tx)
    (open_ : statement ≠ .commit tx) (tenant : statement.tenant? = some tenantId)
    (lasting : Lasting Q) (known : Q w.db.store) (now : InTransaction w tx aborted agents agentTools runs)
    (empty : aborted = true → agents = [] ∧ agentTools = [] ∧ runs = [])
    (acts : ∀ s, Q s → task.ActsFor lib s tenantId)
    (proper : ∀ t, Valid lib t → Q t.db.store → InTransaction t tx aborted agents agentTools runs →
      t.db.Proper statement)
    (ok : ∀ t c row db, Valid lib t → Q t.db.store → InTransaction t tx aborted agents agentTools runs →
      Executed c t.db statement (.ok row) db → Q db.store → Valid lib { t with db } →
      (ownership lib config).Safe task post (next (.ok row)) {.transaction tx} permits { t with db }
        (past ++ [⟨.sql statement, .ok row⟩]))
    (error : ∀ t error, Q t.db.store → InTransaction t tx true [] [] [] →
      (ownership lib config).Safe task post (next (.error error)) {.transaction tx} permits t
        (past ++ [⟨.sql statement, .error error⟩])) :
    (ownership lib config).Safe task post (.call (.sql statement) next) {.transaction tx} permits w past := by
  refine safe_sql (lasting.persistent.and (persistent_inTransaction (Set.mem_singleton _))) ⟨known, now⟩
    fun t c answer db ⟨knows, stands⟩ valid lives claims may ran => ?_
  obtain ⟨received, rfl⟩ := http
  have written : writtenRun statement = none := by cases statement <;> first | rfl | cases inside
  have evolves := valid.wellFormed.evolves (proper t valid knows stands) ran
  have closes_none (other : Uuid) : statement ≠ .commit other := by
    rintro rfl
    cases inside
    exact open_ rfl
  have alive : (Token.transaction tx).Lives { t with db } :=
    still_open ran closes_none (lives _ (Set.mem_singleton _))
  have permitted : (ownership lib config).Permits (.http received) {.transaction tx} t past
      (sqlEffect t permits db answer) {.transaction tx} := by
    refine permits_sql valid ran (proper t valid knows stands) may True.intro (by simp [written]) ?_ ?_
      (fun token owns => .inl owns) ?_ ?_ ?_ fun count found => absurd written (written_of_affected found)
    · intro other found
      rw [inside] at found
      cases found
      exact Set.mem_singleton _
    · rintro token rfl; exact alive
    · intro run present dead
      simp only [written, reduceCtorEq, or_false] at dead
      exact absurd (old_run ran closes_none present) dead
    · intro owner found
      rw [tenant] at found
      cases found
      exact acts _ knows
    · exact fun other commit => absurd commit (closes_none other)
  refine ⟨{.transaction tx}, permitted, ?_⟩
  cases answer with
  | error fault => exact error _ fault (lasting evolves knows) (stands.of_error inside empty ran)
  | ok row => exact ok t c row db valid knows stands ran (lasting evolves knows) permitted.valid

/-- A successful statement of a transaction found it alive. -/
theorem InTransaction.alive {c : Choice} {db : Database} {row : statement.Row}
    (known : InTransaction w tx aborted agents agentTools runs) (inside : statement.transaction? = some tx)
    (open_ : statement ≠ .commit tx) (ran : Executed c w.db statement (.ok row) db) : aborted = false := by
  obtain ⟨transaction, found, rfl⟩ := known.found
  have same {other : Uuid} {transaction' : Transaction} (inside' : statement.transaction? = some other)
      (found' : w.db.findTransaction other = some transaction') (alive : transaction'.aborted = false) :
      transaction.aborted = false := by
    cases inside.symm.trans inside'
    cases found.symm.trans found'
    exact alive
  generalize succeeded : Except.ok row = answer at ran
  cases ran with
  | insertAgent found alive same' fits new => exact same rfl found alive
  | toolExists found alive => exact same rfl found alive
  | insertAgentTool found alive tool => exact same rfl found alive
  | insertRun found alive same' new unclaimed agent => exact same rfl found alive
  | findRunByKey found alive => exact same rfl found alive
  | commitAborted found dead => cases inside; exact absurd rfl open_
  | commit found alive => cases inside; exact absurd rfl open_
  | select healthy answered => cases statement <;> first | (cases answered; done) | cases inside
  | unavailable failing => cases succeeded
  | noTransaction inside' absent => cases succeeded
  | inFailed inside' found' dead => cases succeeded
  | violated outside healthy => cases succeeded
  | violatedWithin inside' found' alive healthy => cases succeeded
  | _ => cases inside

/-- Dropping a transaction undoes it. -/
theorem safe_rollback {next : Unit → Program signature ε α} (http : ∃ request, task = .http request)
    (lasting : Lasting Q) (known : Q w.db.store)
    (rest : ∀ t, Q t.db.store → (ownership lib config).Safe task post (next ()) ∅ permits t
      (past ++ [⟨.rollback tx, ()⟩])) :
    (ownership lib config).Safe task post (.call (.rollback tx) next) {.transaction tx} permits w past := by
  apply Discipline.Safe.call lasting.persistent.stable ⟨rfl, known⟩
  rintro t ⟨_, knows⟩ valid lives holding c effect ran
  obtain ⟨received, rfl⟩ := http
  cases ran
  have kept {run : RunRow} {stage : Stage} (sound : run.Sound lib t.db.store stage) :
      run.Sound lib (t.db.rollback tx).store stage := sound
  refine ⟨∅, ⟨by rintro token rfl; exact Set.mem_singleton _, ⟨valid.wellFormed.rollback tx, valid.runs⟩, .refl _, ?_,
    by simp, by simp, ⟨True.intro, holding.2⟩, ⟨fun _ _ => rfl, nofun⟩, nofun⟩, rest _ knows⟩
  intro token lives foreign
  cases token with
  | run runId => exact ⟨rfl, rfl⟩
  | transaction other =>
    refine sameTransaction_rollback fun same => foreign ?_
    rw [same]
    exact Set.mem_singleton _

theorem store_of_error {c : Choice} {db db' : Database} {fault : SqlxError}
    (ran : Executed c db statement (.error fault) db') : db'.store = db.store := by
  generalize failed : Except.error fault = answer at ran
  cases ran with
  | unavailable failing => rw [lose_store]
  | noTransaction inside absent => rfl
  | inFailed inside found dead => rfl
  | violated outside healthy => rfl
  | violatedWithin inside found alive healthy => rfl
  | _ => cases failed

/-- A run is in its first stage when its transaction is committed. -/
private theorem sound_published (valid : Valid lib w) {run : RunRow} (staged : (tx, run) ∈ w.db.pendingRuns) :
    ¬ Token.Lives w (.run run.id) ∧ run ∈ (w.db.publish tx).store.runs ∧
      run.Sound lib (w.db.publish tx).store .created := by
  have new : ¬ Token.Lives w (.run run.id) := by
    rintro ⟨other, present, clash⟩
    exact (List.pairwise_append.mp valid.wellFormed.runs.ids).2.2 other present run
      (List.mem_map_of_mem staged) other.id rfl (congrArg some clash.symm)
  have published : run ∈ (w.db.publish tx).store.runs := List.mem_append_right _ (mem_own.mpr staged)
  refine ⟨new, published, (valid.wellFormed.runs.fresh tx run staged).sound ?_ ?_⟩
  · refine List.filter_eq_nil_iff.mpr fun trace member hit => new ?_
    obtain ⟨other, present, _, same⟩ := valid.wellFormed.traces trace member
    refine ⟨other, present, same.trans ?_⟩
    simp only [Bool.and_eq_true, beq_iff_eq] at hit
    exact hit.2
  · exact (valid.wellFormed.publish tx).runs.agent run published

/-- Committing: the transaction is closed, and its runs are the thread's own from now on. -/
theorem safe_commit {next : Except SqlxError Unit → Program signature ε α} {kept : Set Token}
    (http : ∃ request, task = .http request) (lasting : Lasting Q) (known : Q w.db.store)
    (now : InTransaction w tx false agents agentTools runs)
    (acts : ∀ s, Q s → task.ActsFor lib s tenantId)
    (tenant : (∀ row ∈ agents, row.tenantId = tenantId) ∧ (∀ row ∈ agentTools, row.tenantId = tenantId) ∧
      ∀ row ∈ runs, row.tenantId = tenantId)
    (keeps : ∀ token, token ∈ kept ↔ ∃ run ∈ runs, token = .run run.id)
    (ok : ∀ t, Q t.db.store → (∀ run ∈ runs, InStage lib t run .created) →
      (ownership lib config).Safe task post (next (.ok ())) kept permits t (past ++ [⟨.sql (.commit tx), .ok ()⟩]))
    (error : ∀ t error, Q t.db.store → InTransaction t tx true [] [] [] →
      (ownership lib config).Safe task post (next (.error error)) {.transaction tx} permits t
        (past ++ [⟨.sql (.commit tx), .error error⟩])) :
    (ownership lib config).Safe task post (.call (.sql (.commit tx)) next) {.transaction tx} permits w past := by
  refine safe_sql (lasting.persistent.and (persistent_inTransaction (Set.mem_singleton _))) ⟨known, now⟩
    fun t c answer db ⟨knows, stands⟩ valid lives claims may ran => ?_
  obtain ⟨received, rfl⟩ := http
  have proper : t.db.Proper (.commit tx) := True.intro
  have evolves := valid.wellFormed.evolves proper ran
  have inserted : t.db.InsertedFor tx tenantId :=
    ⟨fun row staged => tenant.1 row (stands.agents ▸ mem_own.mpr staged),
      fun row staged => tenant.2.1 row (stands.agentTools ▸ mem_own.mpr staged),
      fun row staged => tenant.2.2 row (stands.runs ▸ mem_own.mpr staged)⟩
  have mine (other : Uuid) (found : (Statement.commit tx).transaction? = some other) :
      Token.transaction other ∈ ({.transaction tx} : Set Token) := by
    cases found; exact Set.mem_singleton _
  have commits (other : Uuid) (same : Statement.commit tx = .commit other) :
      ∃ owner, (Task.http received).ActsFor lib t.db.store owner ∧ t.db.InsertedFor other owner := by
    cases same; exact ⟨tenantId, acts _ knows, inserted⟩
  cases answer with
  | error fault =>
    have same := store_of_error ran
    have after := stands.of_error rfl nofun ran
    refine ⟨{.transaction tx}, permits_sql valid ran True.intro may True.intro nofun mine ?_
      (fun token owns => .inl owns) ?_ nofun commits nofun, error _ fault (lasting evolves knows) after⟩
    · rintro token rfl
      obtain ⟨transaction, found, _⟩ := after.found
      exact Option.isSome_iff_exists.mpr ⟨transaction, found⟩
    · intro run present dead
      rw [same] at present
      exact absurd ⟨run, present, rfl⟩ (dead.resolve_right nofun)
  | ok row =>
    obtain ⟨transaction, found, alive⟩ := stands.found
    cases ran with
    | select healthy answered => cases answered
    | commitAborted found' dead =>
      cases found.symm.trans found'
      cases dead.symm.trans alive
    | commit found' alive' =>
      have staged {run : RunRow} (member : run ∈ runs) : (tx, run) ∈ t.db.pendingRuns :=
        mem_own.mp (stands.runs ▸ member)
      have committed : Executed c t.db (.commit tx) (.ok ()) (t.db.publish tx) := .commit found' alive'
      refine ⟨kept, permits_sql valid committed True.intro may True.intro nofun mine ?_ ?_ ?_ nofun
        commits nofun, ok _ (lasting evolves knows) fun run member => ?_⟩
      · intro token owns
        obtain ⟨run, member, rfl⟩ := (keeps token).mp owns
        exact ⟨run, (sound_published valid (staged member)).2.1, rfl⟩
      · intro token owns
        obtain ⟨run, member, rfl⟩ := (keeps token).mp owns
        exact .inr (sound_published valid (staged member)).1
      · intro run present dead
        rcases List.mem_append.mp present with old | new
        · exact absurd ⟨run, old, rfl⟩ (dead.resolve_right nofun)
        · exact ⟨.created, (sound_published valid (mem_own.mp new)).2.2⟩
      · obtain ⟨_, published, sound⟩ := sound_published valid (staged member)
        exact ⟨run, published, .refl run, sound⟩

end Transactions

end AgentPlatform
