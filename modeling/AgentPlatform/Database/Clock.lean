import AgentPlatform.Database.Evolution

/-! # The times in the rows

Every time that a statement writes is the time of the statement or of the begin of its transaction. If the
clock never goes back then no row is from the future, a run is created before it is started and started
before it is finished, and the events come in the order of their times.
-/

set_option autoImplicit false

namespace AgentPlatform

open Relational

/-- The times of a run, now. -/
structure RunRow.Timed (now : Timestamp) (run : RunRow) : Prop where
  created : run.createdAt ≤ now
  started : ∀ start, run.startedAt = some start → run.createdAt ≤ start ∧ start ≤ now
  finished : ∀ finish, run.finishedAt = some finish → run.createdAt ≤ finish ∧ finish ≤ now ∧
    ∀ start, run.startedAt = some start → start ≤ finish

namespace Database

/-- The rows, now. -/
structure Timed (now : Timestamp) (db : Database) : Prop where
  transactions : ∀ entry ∈ db.transactions, entry.2.startedAt ≤ now
  runs : ∀ run ∈ everything db.store.runs db.pendingRuns, run.Timed now
  events : ∀ event ∈ db.store.runTraces, event.createdAt ≤ now
  ordered : db.store.runTraces.Pairwise fun earlier later => earlier.createdAt ≤ later.createdAt

end Database

theorem RunRow.Timed.mono {now later : Timestamp} {run : RunRow} (timed : run.Timed now)
    (passes : now ≤ later) : run.Timed later where
  created := timed.created.trans passes
  started start at_start := (timed.started start at_start).imp_right fun known => known.trans passes
  finished finish at_finish := by
    obtain ⟨created, known, started⟩ := timed.finished finish at_finish
    exact ⟨created, known.trans passes, started⟩

/-- A run that was not started is created and not finished. -/
theorem RunRow.Timed.fresh {now : Timestamp} {run : RunRow} (created : run.createdAt ≤ now)
    (unstarted : run.startedAt = none) (unfinished : run.finishedAt = none) : run.Timed now where
  created := created
  started start started := by
    rw [unstarted] at started
    cases started
  finished finish finished := by
    rw [unfinished] at finished
    cases finished

/-- The time at which a run is finished. -/
theorem RunRow.Timed.finish {now : Timestamp} {run : RunRow} (timed : run.Timed now) (status : RunStatus)
    (finalAnswer errorReason : Option String) :
    RunRow.Timed now { run with status, finalAnswer, errorReason, finishedAt := some now } where
  created := timed.created
  started := timed.started
  finished finish same := by
    obtain rfl := Option.some.inj same
    exact ⟨timed.created, Nat.le_refl _, fun start started => (timed.started start started).2⟩

namespace Database

variable {c : Choice} {db db' : Database} {now later : Timestamp} {tx : Uuid}

theorem Timed.empty : Timed now {} := ⟨by simp, by simp [everything], by simp, .nil⟩

theorem Timed.mono (timed : db.Timed now) (passes : now ≤ later) : db.Timed later where
  transactions entry member := (timed.transactions entry member).trans passes
  runs run member := (timed.runs run member).mono passes
  events event member := (timed.events event member).trans passes
  ordered := timed.ordered

theorem Timed.rollback (timed : db.Timed now) (tx : Uuid) : (db.rollback tx).Timed now where
  transactions entry member := timed.transactions entry (mem_without.mp member).1
  runs run member := timed.runs run (discard_sublist.subset member)
  events := timed.events
  ordered := timed.ordered

theorem Timed.abort (timed : db.Timed now) (tx : Uuid) : (db.abort tx).Timed now where
  transactions entry member := by
    obtain ⟨other, known, rfl⟩ := List.mem_map.mp member
    split
    · exact timed.transactions other known
    · exact timed.transactions other known
  runs run member := timed.runs run (discard_sublist.subset member)
  events := timed.events
  ordered := timed.ordered

theorem Timed.publish (timed : db.Timed now) (tx : Uuid) : (db.publish tx).Timed now where
  transactions := (timed.rollback tx).transactions
  runs run member := timed.runs run (publish_perm.subset member)
  events := timed.events
  ordered := timed.ordered

theorem Timed.reconnect (timed : db.Timed now) : Timed now { store := db.store } where
  transactions := by simp
  runs run member := timed.runs run (by simp_all [everything])
  events := timed.events
  ordered := timed.ordered

theorem Timed.updateRuns (timed : db.Timed now) {selected : RunRow → Bool} {update : RunRow → RunRow}
    (updates : ∀ run ∈ db.store.runs, selected run = true → (update run).Timed now) :
    (db.updateRuns selected update).2.Timed now where
  transactions := timed.transactions
  runs run member := by
    rcases mem_everything.mp member with committed | pending
    · obtain ⟨before, there, rfl⟩ := List.mem_map.mp committed
      split
      · next chosen => exact updates before there chosen
      · exact timed.runs before (mem_everything.mpr (.inl there))
    · exact timed.runs run (mem_everything.mpr (.inr pending))
  events := timed.events
  ordered := timed.ordered

/-- The time of a transaction. -/
theorem Timed.startedAt (timed : db.Timed now) {transaction : Transaction}
    (found : db.findTransaction tx = some transaction) : transaction.startedAt ≤ now := by
  obtain ⟨before, after, same, _⟩ := List.lookup_eq_some_iff.mp found
  exact timed.transactions (tx, transaction) (by rw [same]; simp)

/-- A statement writes its own time. -/
theorem Timed.executed {statement : Statement} {answer : Except SqlxError statement.Row} (timed : db.Timed c.now)
    (ran : Executed c db statement answer db')
    (fresh : ∀ run ∈ db.store.runs, run.status = .pending → run.finishedAt = none) : db'.Timed c.now := by
  cases ran with
  | unavailable failing =>
    unfold lose
    split
    · exact timed.abort _
    · exact timed
  | violatedWithin inside found alive healthy => exact timed.abort _
  | commitAborted found aborted => exact timed.rollback _
  | commit found alive => exact timed.publish _
  | begin new =>
    refine { timed with transactions := fun entry member => ?_ }
    rcases List.mem_append.mp member with old | new
    · exact timed.transactions entry old
    · obtain rfl := List.mem_singleton.mp new
      exact Nat.le_refl _
  | insertRun found alive same new unclaimed agent =>
    refine { timed with runs := fun run member => ?_ }
    rcases mem_everything.mp member with committed | ⟨tx, pending⟩
    · exact timed.runs run (mem_everything.mpr (.inl committed))
    rcases List.mem_append.mp pending with old | inserted
    · exact timed.runs run (mem_everything.mpr (.inr ⟨tx, old⟩))
    · obtain ⟨rfl, rfl⟩ := Prod.mk.inj (List.mem_singleton.mp inserted)
      subst same
      exact .fresh (timed.startedAt found) rfl rfl
  | markRunFailed =>
    apply timed.updateRuns
    exact fun run present _ => (timed.runs run (mem_everything.mpr (.inl present))).finish _ _ _
  | finalizeRun =>
    apply timed.updateRuns
    exact fun run present _ => (timed.runs run (mem_everything.mpr (.inl present))).finish _ _ _
  | beginRunExecution =>
    apply timed.updateRuns
    intro run present chosen
    simp only [Bool.and_eq_true, beq_iff_eq] at chosen
    have known := timed.runs run (mem_everything.mpr (.inl present))
    refine ⟨known.created, ?_, ?_⟩
    · rintro _ ⟨⟩
      exact ⟨known.created, Nat.le_refl _⟩
    · intro finish finished
      rw [fresh run present chosen.2] at finished
      cases finished
  | appendEvent new run =>
    refine { timed with events := fun event member => ?_, ordered := ?_ }
    · rcases List.mem_append.mp member with old | new
      · exact timed.events event old
      · obtain rfl := List.mem_singleton.mp new
        exact Nat.le_refl _
    · refine List.pairwise_append.mpr ⟨timed.ordered, List.pairwise_singleton _ _, fun event old later new => ?_⟩
      obtain rfl := List.mem_singleton.mp new
      exact timed.events event old
  | _ => exact { timed with }

/-- An event that a statement brings in has the time of the statement. -/
theorem event_executed {statement : Statement} {answer : Except SqlxError statement.Row}
    (ran : Executed c db statement answer db') {event : TraceRow} (member : event ∈ db'.store.runTraces) :
    event ∈ db.store.runTraces ∨ event.createdAt = c.now := by
  cases ran with
  | unavailable failing =>
    rw [lose_store] at member
    exact .inl member
  | appendEvent new run =>
    rcases List.mem_append.mp member with old | new
    · exact .inl old
    · obtain rfl := List.mem_singleton.mp new
      exact .inr rfl
  | _ => exact .inl member

end Database

end AgentPlatform
