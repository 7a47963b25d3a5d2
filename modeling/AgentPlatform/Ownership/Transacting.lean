import AgentPlatform.Database.Answers
import AgentPlatform.Ownership.Sessions

/-! # Whose transactions are open

In every state that a process reaches, the open transactions are exactly those of the requests that
are between their begin and their end, and different requests have different ones. So nothing is
left open behind a request, whatever failed, and only a request in the middle of its transaction
keeps others waiting.
-/

set_option autoImplicit false

namespace AgentPlatform

open Interleaving Relational Database

variable {lib : Libraries} {config : Config} {s : Store} {c : Choice} {db db' : Database}
  {statement : Statement} {tx : Uuid}

/-! ## Statements -/

namespace Database

/-- Only a successful begin opens a transaction. -/
theorem findTransaction_executed {answer : Except SqlxError statement.Row} (ran : Executed c db statement answer db')
    (other : ∀ handle, (⟨.sql statement, answer⟩ : Performed signature) ≠ ⟨.sql .begin, .ok handle⟩)
    (alive : (db'.findTransaction tx).isSome) : (db.findTransaction tx).isSome := by
  have rolled {other : Uuid} (alive : ((db.rollback other).findTransaction tx).isSome) :
      (db.findTransaction tx).isSome := by
    by_cases same : tx = other
    · subst same
      simp at alive
    · rwa [findTransaction_rollback same] at alive
  cases ran with
  | unavailable failing =>
    unfold lose at alive
    split at alive
    · rwa [isSome_findTransaction_abort] at alive
    · exact alive
  | violatedWithin inside found alive' healthy => rwa [isSome_findTransaction_abort] at alive
  | begin new => exact absurd rfl (other c.id)
  | commitAborted found aborted => exact rolled alive
  | commit found alive' => exact rolled alive
  | _ => exact alive

/-- A statement inside a transaction aborts it or keeps what it has inserted, unless it ends it. -/
theorem inside_executed {answer : Except SqlxError statement.Row} {transaction : Transaction}
    (ran : Executed c db statement answer db') (inside : statement.transaction? = some tx)
    (found : db.findTransaction tx = some transaction)
    (stays : statement = .commit tx → ∃ error, answer = .error error) :
    ∃ later, db'.findTransaction tx = some later ∧
      (later.aborted = false → transaction.aborted = false ∧ own tx db.pendingAgents ⊆ own tx db'.pendingAgents) := by
  have aborts : ∃ later, (db.abort tx).findTransaction tx = some later ∧
      (later.aborted = false → transaction.aborted = false ∧
          own tx db.pendingAgents ⊆ own tx (db.abort tx).pendingAgents) := by
    rw [findTransaction_abort, if_pos rfl, found]
    exact ⟨_, rfl, by rintro ⟨⟩⟩
  have same : ∃ later, db.findTransaction tx = some later ∧
      (later.aborted = false → transaction.aborted = false ∧ own tx db.pendingAgents ⊆ own tx db.pendingAgents) :=
    ⟨transaction, found, fun alive => ⟨alive, fun _ member => member⟩⟩
  cases ran with
  | unavailable failing =>
    rw [lose, inside]
    exact aborts
  | violatedWithin inside' _ _ _ =>
    cases inside.symm.trans inside'
    exact aborts
  | insertAgent _ _ _ _ _ =>
    refine ⟨transaction, found, fun alive => ⟨alive, ?_⟩⟩
    rw [own_append]
    exact List.subset_append_left _ _
  | commitAborted _ _ | commit _ _ =>
    cases inside
    obtain ⟨error, failed⟩ := stays rfl
    cases failed
  | _ => first | exact same | cases inside

/-- Only a successful `INSERT` adds an agent to a transaction. -/
theorem pendingAgents_executed {answer : Except SqlxError statement.Row} (ran : Executed c db statement answer db')
    (other : ∀ tx tenantId name systemPrompt maxIterations row, (⟨.sql statement, answer⟩ : Performed signature) ≠
      ⟨.sql (.insertAgent tx tenantId name systemPrompt maxIterations),
        .ok row⟩) : db'.pendingAgents ⊆ db.pendingAgents := by
  have discarded (tx : Uuid) : without tx db.pendingAgents ⊆ db.pendingAgents := List.filter_subset_self _
  cases ran with
  | unavailable failing =>
    unfold lose
    split
    · exact discarded _
    · exact List.Subset.refl _
  | violatedWithin inside found alive healthy => exact discarded _
  | insertAgent found alive same fits new => exact absurd rfl (other _ _ _ _ _ _)
  | commitAborted found aborted => exact discarded _
  | commit found alive => exact discarded _
  | _ => exact List.Subset.refl _

theorem own_nil_of_subset {α : Type} {pending pending' : List (Uuid × α)} (fewer : pending' ⊆ pending)
    (empty : own tx pending = []) : own tx pending' = [] := by
  refine List.eq_nil_iff_forall_not_mem.mpr fun row member => ?_
  have old : row ∈ own tx pending := mem_own.mpr (fewer (mem_own.mp member))
  rw [empty] at old
  cases old

/-- A successful commit ends its transaction. -/
theorem commit_executed (ran : Executed c db (.commit tx) (.ok ()) db') : db'.findTransaction tx = none := by
  generalize same : (Except.ok () : Except SqlxError Unit) = answer at ran
  cases ran with
  | commitAborted _ _ | commit _ _ => exact findTransaction_rollback_self
  | select healthy answered => cases answered
  | _ => cases same

end Database

/-! ## Sessions -/

namespace Session

/-- What the database has of the transaction of a request. -/
def Describes (db : Database) : Session → Prop
  | outside => True
  | opened tx => (db.findTransaction tx).isSome ∧ own tx db.pendingAgents = [] ∧ own tx db.pendingAgentTools = [] ∧
      own tx db.pendingRuns = []
  | inserted tx agentId => ∃ transaction, db.findTransaction tx = some transaction ∧
      (∀ id, agentId = some id → transaction.aborted = false → ∃ agent ∈ own tx db.pendingAgents, agent.id = id) ∧
      (agentId = none → own tx db.pendingAgents = [])

theorem Describes.alive {session : Session} (describes : session.Describes db)
    (mine : session.transaction? = some tx) : (db.findTransaction tx).isSome := by
  cases session with
  | outside => cases mine
  | opened other =>
    cases mine
    exact describes.1
  | inserted other agentId =>
    cases mine
    obtain ⟨transaction, found, _⟩ := describes
    rw [found]
    rfl

/-- The session of a request is not affected by what happens to other transactions. -/
theorem Describes.same {session : Session} (describes : session.Describes db)
    (same : ∀ tx, session.transaction? = some tx → SameTransaction tx db db') : session.Describes db' := by
  cases session with
  | outside => trivial
  | opened tx =>
    have kept := same tx rfl
    simpa only [Describes, kept.entry, kept.agents, kept.agentTools, kept.runs] using describes
  | inserted tx agentId =>
    have kept := same tx rfl
    simpa only [Describes, kept.entry, kept.agents] using describes

/-- One operation of a request, as its own session and the transactions of the others see it. -/
structure Moves (before after : Session) (db db' : Database) : Prop where
  describes : after.Describes db'
  foreign : ∀ tx, (db.findTransaction tx).isSome → before.transaction? ≠ some tx → SameTransaction tx db db'
  fresh : ∀ tx, after.transaction? = some tx → before.transaction? = some tx ∨ db.findTransaction tx = none
  living : ∀ tx, (db'.findTransaction tx).isSome →
    after.transaction? = some tx ∨ (db.findTransaction tx).isSome ∧ before.transaction? ≠ some tx

/-- A statement inside the transaction of a request that does not end it. -/
private theorem moves_inside {before after : Session} {answer : Except SqlxError statement.Row}
    (ran : Executed c db statement answer db') (inside : statement.transaction? = some tx)
    (mine : before.transaction? = some tx) (still : after.transaction? = some tx) (describes : after.Describes db') :
    Moves before after db db' where
  describes := describes
  foreign other alive different := sameTransaction ran alive fun same =>
    different (mine.trans (inside.symm.trans same))
  fresh other same := .inl (mine.trans (still.symm.trans same))
  living other alive := by
    by_cases same : other = tx
    · exact .inl (still.trans (congrArg some same.symm))
    · refine .inr ⟨findTransaction_executed ran (by rintro handle ⟨⟩; cases inside) alive, fun same' => ?_⟩
      exact same (Option.some.inj (same'.symm.trans mine))

/-- The end of the transaction of a request. -/
private theorem moves_ends {before : Session} (mine : before.transaction? = some tx)
    (gone : db'.findTransaction tx = none) (foreign : ∀ other, other ≠ tx → SameTransaction other db db') :
    Moves before .outside db db' where
  describes := True.intro
  foreign other alive different := foreign other fun same => different (mine.trans (congrArg some same.symm))
  fresh other none := by cases none
  living other alive := by
    have different : other ≠ tx := by
      rintro rfl
      rw [gone] at alive
      cases alive
    refine .inr ⟨?_, fun same => different (Option.some.inj (same.symm.trans mine))⟩
    rw [← (foreign other different).entry]
    exact alive

/-- A statement of a request outside transactions. -/
private theorem moves_outside {answer : Except SqlxError statement.Row} (pending : db.Open)
    (executes : db.execute c statement = some (answer, db')) (outside : statement.transaction? = none) :
    Moves .outside (Session.outside.next ⟨.sql statement, answer⟩) db db' := by
  have ran := executed executes
  have foreign (tx : Uuid) (alive : (db.findTransaction tx).isSome) : SameTransaction tx db db' :=
    sameTransaction ran alive (by simp [outside])
  by_cases begun : ∃ handle, (⟨.sql statement, answer⟩ : Performed signature) = ⟨.sql .begin, .ok handle⟩
  · obtain ⟨handle, same⟩ := begun
    cases same
    obtain ⟨new, rfl, rfl⟩ := begun executes
    have unused {row : AgentRow} : (c.id, row) ∉ db.pendingAgents := fun member => by
      simpa [new] using pending.agents _ _ member
    have unused' {row : AgentToolRow} : (c.id, row) ∉ db.pendingAgentTools := fun member => by
      simpa [new] using pending.agentTools _ _ member
    have unused'' {row : RunRow} : (c.id, row) ∉ db.pendingRuns := fun member => by
      simpa [new] using pending.runs _ _ member
    constructor
    · refine ⟨by simp [findTransaction, List.lookup_append], ?_, ?_, ?_⟩
      · exact List.eq_nil_iff_forall_not_mem.mpr fun row member => unused (mem_own.mp member)
      · exact List.eq_nil_iff_forall_not_mem.mpr fun row member => unused' (mem_own.mp member)
      · exact List.eq_nil_iff_forall_not_mem.mpr fun row member => unused'' (mem_own.mp member)
    · exact fun tx alive _ => foreign tx alive
    · rintro tx ⟨⟩
      exact .inr new
    · intro tx alive
      by_cases same : tx = c.id
      · exact .inl (congrArg some same.symm)
      · refine .inr ⟨?_, by rintro ⟨⟩⟩
        simpa [findTransaction, List.lookup_append, same] using alive
  · have stays : Session.outside.next ⟨.sql statement, answer⟩ = .outside := by
      cases statement <;> first | rfl | (cases answer <;> first | rfl | exact absurd ⟨_, rfl⟩ begun)
    rw [stays]
    constructor
    · trivial
    · exact fun tx alive _ => foreign tx alive
    · rintro tx ⟨⟩
    · exact fun tx alive =>
        .inr ⟨findTransaction_executed ran (fun handle same => begun ⟨handle, same⟩) alive, by rintro ⟨⟩⟩

/-- A session that has got past its first statement, after any statement that does not end it. -/
private theorem moves_inserted {before : Session} {agentId : Option Uuid} {answer : Except SqlxError statement.Row}
    (ran : Executed c db statement answer db') (inside : statement.transaction? = some tx)
    (mine : before.transaction? = some tx) (alive : (db.findTransaction tx).isSome)
    (stays : statement = .commit tx → ∃ error, answer = .error error)
    (agent : ∀ id, agentId = some id → ∀ transaction later, db.findTransaction tx = some transaction →
      db'.findTransaction tx = some later → later.aborted = false → ∃ agent ∈ own tx db'.pendingAgents, agent.id = id)
    (agentless : agentId = none → own tx db'.pendingAgents = []) : Moves before (inserted tx agentId) db db' := by
  obtain ⟨transaction, found⟩ := Option.isSome_iff_exists.mp alive
  obtain ⟨later, still, _⟩ := inside_executed ran inside found stays
  apply moves_inside ran inside mine rfl
  exact ⟨later, still, fun id same fine => agent id same transaction later found still fine, agentless⟩

private theorem moves_insert {answer : Except SqlxError statement.Row} (ran : Executed c db statement answer db')
    (describes : (opened tx).Describes db) (allowed : (opened tx).allows (.sql statement)) :
    Moves (opened tx) ((opened tx).next ⟨.sql statement, answer⟩) db db' := by
  have alive := describes.alive rfl
  cases statement with
  | insertRun tx' owner agentId inputMessages idempotencyKey =>
    obtain rfl : tx' = tx := allowed
    apply moves_inserted ran rfl rfl alive (by rintro ⟨⟩) (by rintro id ⟨⟩)
    exact fun _ => own_nil_of_subset (pendingAgents_executed ran (by rintro _ _ _ _ _ _ ⟨⟩)) describes.2.1
  | insertAgent tx' owner name systemPrompt maxIterations =>
    obtain rfl : tx' = tx := allowed
    rcases answer with fault | row
    · apply moves_inserted ran rfl rfl alive (by rintro ⟨⟩) (by rintro id ⟨⟩)
      exact fun _ => own_nil_of_subset (pendingAgents_executed ran (by rintro _ _ _ _ _ _ ⟨⟩)) describes.2.1
    · refine moves_inserted ran rfl rfl alive (by rintro ⟨⟩) ?_ (by rintro ⟨⟩)
      rintro id ⟨⟩ transaction later _ _ _
      refine ⟨row, ?_, rfl⟩
      generalize same : (Except.ok row : Except SqlxError AgentRow) = answer at ran
      cases ran with
      | insertAgent found alive fields fits new =>
        rw [own_append, Except.ok.inj same]
        simp
      | select healthy answered => cases answered
      | _ => cases same
  | _ => exact allowed.elim

private theorem moves_within {agentId : Option Uuid} {answer : Except SqlxError statement.Row}
    (ran : Executed c db statement answer db') (describes : (inserted tx agentId).Describes db)
    (allowed : (inserted tx agentId).allows (.sql statement)) :
    Moves (inserted tx agentId) ((inserted tx agentId).next ⟨.sql statement, answer⟩) db db' := by
  obtain ⟨transaction, found, agent, agentless⟩ := describes
  have alive : (db.findTransaction tx).isSome := by simp [found]
  have stays (inside : statement.transaction? = some tx)
      (unended : statement = .commit tx → ∃ error, answer = .error error)
      (other : ∀ tx tenantId name systemPrompt maxIterations row, (⟨.sql statement, answer⟩ : Performed signature) ≠
        ⟨.sql (.insertAgent tx tenantId name systemPrompt maxIterations), .ok row⟩) :
      Moves (inserted tx agentId) (inserted tx agentId) db db' := by
    refine moves_inserted ran inside rfl alive unended ?_ fun absent =>
      own_nil_of_subset (pendingAgents_executed ran other) (agentless absent)
    intro id same before later here still fine
    cases found.symm.trans here
    obtain ⟨after, there, kept⟩ := inside_executed ran inside found unended
    cases still.symm.trans there
    obtain ⟨row, member, named⟩ := agent id same (kept fine).1
    exact ⟨row, (kept fine).2 member, named⟩
  cases statement with
  | insertAgentTool tx' owner bound toolId =>
    obtain ⟨rfl, _⟩ := allowed
    exact stays rfl (by rintro ⟨⟩) (by rintro _ _ _ _ _ _ ⟨⟩)
  | toolExists tx' owner toolId =>
    obtain rfl : tx' = tx := allowed
    exact stays rfl (by rintro ⟨⟩) (by rintro _ _ _ _ _ _ ⟨⟩)
  | findRunByKey tx' owner bound idempotencyKey =>
    obtain rfl : tx' = tx := allowed
    exact stays rfl (by rintro ⟨⟩) (by rintro _ _ _ _ _ _ ⟨⟩)
  | commit tx' =>
    obtain rfl : tx' = tx := allowed
    rcases answer with fault | done
    · exact stays rfl (fun _ => ⟨fault, rfl⟩) (by rintro _ _ _ _ _ _ ⟨⟩)
    · apply moves_ends rfl (commit_executed ran)
      intro other different
      generalize same : (Except.ok done : Except SqlxError Unit) = answer at ran
      cases ran with
      | commitAborted _ _ => exact sameTransaction_rollback different
      | commit _ _ =>
        have kept : SameTransaction other db (db.rollback tx') := sameTransaction_rollback different
        exact ⟨kept.entry, kept.agents, kept.agentTools, kept.runs⟩
      | select healthy answered => cases answered
      | _ => cases same
  | _ => exact allowed.elim

variable {w : World} {permits : List SemaphoreRef} {op : Op}
  {effect : Effect signature (List SemaphoreRef) World Task op}

/-- An operation that the session of its request allows. -/
theorem moves {session : Session} (pending : w.db.Open) (describes : session.Describes w.db)
    (allowed : session.allows op) (ran : op.exec config Task.executeRun c permits w = some effect) :
    Moves session (session.next ⟨op, effect.answer⟩) w.db effect.shared.db := by
  have still (same : effect.shared.db = w.db) : Moves .outside .outside w.db effect.shared.db := by
    rw [same]
    exact ⟨True.intro, fun tx _ _ => .refl tx _, by rintro tx ⟨⟩, fun tx alive => .inr ⟨alive, by rintro ⟨⟩⟩⟩
  cases op with
  | sql statement =>
    obtain ⟨⟨answer, db⟩, executes, rfl⟩ := Option.map_eq_some_iff.mp ran
    cases session with
    | outside => exact moves_outside pending executes allowed
    | opened tx => exact moves_insert (executed executes) describes allowed
    | inserted tx agentId => exact moves_within (executed executes) describes allowed
  | rollback tx =>
    cases session with
    | inserted mine agentId =>
      obtain rfl : tx = mine := allowed
      cases ran
      exact moves_ends rfl findTransaction_rollback_self fun other different => sameTransaction_rollback different
    | _ => exact allowed.elim
  | _ =>
    cases session with
    | outside =>
      apply still
      simp only [Op.exec] at ran
      first
        | (cases ran; rfl)
        | (split at ran <;> cases ran <;> rfl)
    | _ => exact allowed.elim

end Session

/-! ## Whole processes -/

section Processes

variable {events : List (Event (platform lib config))} {pool : Pool (platform lib config)} {i j : ℕ}

/-- How far thread `i` has come with its transaction. -/
def session (i : ℕ) (events : List (Event (platform lib config))) : Session :=
  sessions.standing Session.outside i events

/-- The open transactions and the sessions of the threads belong together. -/
structure Transacting (events : List (Event (platform lib config))) (pool : Pool (platform lib config)) : Prop where
  describes : ∀ i, (session i events).Describes pool.shared.db
  apart : ∀ i j tx, (session i events).transaction? = some tx → (session j events).transaction? = some tx → i = j
  owned : ∀ tx, (pool.shared.db.findTransaction tx).isSome → ∃ i, (session i events).transaction? = some tx

theorem session_obeys (path : Path (booted lib config s) events pool) {thread : Thread (platform lib config)}
    (present : pool.threads[i]? = some thread) : thread.program.Obeys sessions Closed (session i events) :=
  path.obeys rfl obeys_task present

/-- One operation of thread `i`. -/
private theorem Transacting.performed {next : Pool (platform lib config)} {what : Performed signature}
    (before : Transacting events pool)
    (moves : Session.Moves (session i events) ((session i events).next what) pool.shared.db next.shared.db) :
    Transacting (events ++ [.performed i c what]) next := by
  have standing (j : ℕ) : session j (events ++ [.performed i c what]) =
      if i = j then (session i events).next what else session j events := by
    rw [session, Protocol.standing_performed]
    split
    · next same => rw [same]; rfl
    · rfl
  constructor
  · intro j
    rw [standing]
    split
    · exact moves.describes
    · next other =>
      refine (before.describes j).same fun tx mine =>
        moves.foreign tx ((before.describes j).alive mine) fun theirs => ?_
      exact other (before.apart i j tx theirs mine)
  · have apart {j k : ℕ} (tx : Uuid) (mover : i = j) (other : i ≠ k)
        (mine : ((session i events).next what).transaction? = some tx)
        (theirs : (session k events).transaction? = some tx) : j = k := by
      rcases moves.fresh tx mine with old | new
      · exact mover ▸ before.apart i k tx old theirs
      · have alive := (before.describes k).alive theirs
        simp [new] at alive
    intro j k tx mine theirs
    rw [standing] at mine theirs
    split at mine <;> split at theirs
    · next first second => exact first.symm.trans second
    · next first second => exact apart tx first second mine theirs
    · next first second => exact (apart tx second first theirs mine).symm
    · exact before.apart j k tx mine theirs
  · intro tx alive
    rcases moves.living tx alive with mine | ⟨old, other⟩
    · exact ⟨i, by rw [standing, if_pos rfl]; exact mine⟩
    · obtain ⟨j, theirs⟩ := before.owned tx old
      refine ⟨j, ?_⟩
      rw [standing, if_neg]
      · exact theirs
      · rintro rfl
        exact other theirs

theorem transacting (left : Left lib s) (path : Path (booted lib config s) events pool) :
    Transacting events pool := by
  induction path with
  | nil =>
    refine ⟨fun i => True.intro, fun i j tx mine => ?_, fun tx alive => ?_⟩
    · cases mine
    · simp [booted, findTransaction] at alive
  | @snoc middle last events event path step ih =>
    cases step with
    | @arrive task accepted =>
      have same (i : ℕ) : session i (events ++ [Event.arrived task]) = session i events := Protocol.standing_arrived
      refine ⟨fun i => ?_, fun i j => ?_, fun tx alive => ?_⟩
      · rw [same]
        exact ih.describes i
      · rw [same, same]
        exact ih.apart i j
      · obtain ⟨i, mine⟩ := ih.owned tx alive
        exact ⟨i, by rw [same]; exact mine⟩
    | @act i task owned op rest choice effect present ran =>
      have allowed : (session i events).allows op := (session_obeys path present).1
      exact ih.performed (Session.moves (valid_of_booted left path).wellFormed.pending (ih.describes i) allowed ran)

end Processes

end AgentPlatform
