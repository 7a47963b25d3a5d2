import AgentPlatform.Database.Unique
import AgentPlatform.Model.Lifetime
import AgentPlatform.Ownership.Surrounded

/-! # The discipline after a restart

The rows that a process leaves satisfy everything the next one starts from, so the threads of every
process follow the discipline, whatever was in progress when an earlier one stopped.
-/

set_option autoImplicit false

namespace AgentPlatform

open Interleaving Relational Database

variable {lib : Libraries} {config : Config} {s : Store} {events : List (Event (platform lib config))}
  {pool next : Pool (platform lib config)} {event : Event (platform lib config)}

/-- The committed rows are well formed without the uncommitted ones. -/
theorem Database.WellFormed.reconnect {db : Database} (wellFormed : db.WellFormed) :
    WellFormed { store := db.store } where
  accounts := wellFormed.accounts
  catalogue := wellFormed.catalogue
  agents :=
    { ids := by simpa [everything] using wellFormed.agents.ids.committed
      iterations := fun agent member => wellFormed.agents.iterations agent (by simp_all [everything])
      active := fun agent member => wellFormed.agents.active agent (by simp_all [everything]) }
  bindings :=
    { tool := fun binding member => wellFormed.bindings.tool binding (by simp_all [everything])
      agent := wellFormed.bindings.agent
      pendingAgent := by simp }
  runs :=
    { ids := by simpa [everything] using wellFormed.runs.ids.committed
      scopes := by simpa [everything] using wellFormed.runs.scopes.committed
      messages := fun run member => wellFormed.runs.messages run (by simp_all [everything])
      agent := wellFormed.runs.agent
      pendingAgent := by simp
      fresh := by simp }
  traces := wellFormed.traces
  pending := ⟨by simp, by simp, by simp⟩

theorem Valid.reconnect {w : World} (valid : Valid lib w) : Valid lib (booted lib config w.db.store).shared :=
  ⟨valid.wellFormed.reconnect, valid.runs⟩

/-- A process that starts in a valid state leaves one. -/
theorem Serves.valid {t : Store} {past : List (Process lib)} (serves : Serves lib s past t)
    (valid : ∀ config, Valid lib (booted lib config s).shared) : Valid lib (booted lib config t).shared := by
  induction serves generalizing config with
  | nothing => exact valid config
  | stopped earlier path ih =>
    obtain ⟨claims, holds⟩ := Discipline.holds_of_path verified path rfl ih
    exact holds.valid.reconnect

theorem Left.valid (left : Left lib s) : Valid lib (booted lib config s).shared := by
  obtain ⟨past, serves⟩ := left
  exact serves.valid fun config => @valid_started lib config

theorem Left.empty : Left lib {} := ⟨[], .nothing⟩

theorem Left.stopped (left : Left lib s) (path : Path (booted lib config s) events pool) :
    Left lib pool.shared.db.store := by
  obtain ⟨past, serves⟩ := left
  exact ⟨_, serves.stopped path⟩

theorem Left.serves {t : Store} {past : List (Process lib)} (left : Left lib s) (serves : Serves lib s past t) :
    Left lib t := by
  induction serves with
  | nothing => exact left
  | stopped earlier path ih => exact ih.stopped path

/-- The threads of every process follow the discipline. -/
theorem holds_of_booted (left : Left lib s) (path : Path (booted lib config s) events pool) :
    ∃ claims, (ownership lib config).Holds events pool claims :=
  Discipline.holds_of_path verified path rfl left.valid

theorem valid_of_booted (left : Left lib s) (path : Path (booted lib config s) events pool) :
    Valid lib pool.shared := by
  obtain ⟨claims, holds⟩ := holds_of_booted left path
  exact holds.valid

/-- Every step of every process is lawful. -/
theorem lawful_of_booted (left : Left lib s) (path : Path (booted lib config s) events pool)
    (step : Step pool event next) : (ownership lib config).Lawful events pool event next := by
  obtain ⟨claims, holds⟩ := holds_of_booted left path
  exact (holds.step verified step).2

/-- Every step of every process only lets the rows evolve. -/
theorem evolves_of_booted (left : Left lib s) (path : Path (booted lib config s) events pool)
    (step : Step pool event next) : pool.shared.db.store.Evolves next.shared.db.store := by
  have lawful := lawful_of_booted left path step
  cases event with
  | arrived task =>
    rw [show next.shared = pool.shared from lawful]
    exact .refl _
  | performed i c what => exact lawful.1

theorem numbered_of_path {first last : Pool (platform lib config)} (path : Path first events last)
    (numbered : first.shared.db.store.Numbered) : last.shared.db.store.Numbered := by
  induction path with
  | nil => exact numbered
  | snoc path step ih =>
    rcases store_of_step step with same | ⟨i, c, statement, answer, _, ran⟩
    · rw [same]
      exact ih
    · exact numbered_executed ran ih

/-- The events of every run keep their numbers over restarts. -/
theorem Left.numbered (left : Left lib s) : s.Numbered := by
  obtain ⟨past, serves⟩ := left
  induction serves with
  | nothing =>
    intro tenantId runId k row found
    simp [Store.traceRows] at found
  | stopped earlier path ih => exact numbered_of_path path ih

/-! ## What a process keeps -/

theorem Lasting.of_booted {Q : Store → Prop} {more : List (Event (platform lib config))}
    {last : Pool (platform lib config)} (lasting : Lasting Q) (left : Left lib s)
    (path : Path (booted lib config s) events pool) (later : Path pool more last) (now : Q pool.shared.db.store) :
    Q last.shared.db.store := by
  induction later with
  | nil => exact now
  | snoc later step ih => exact lasting (evolves_of_booted left (path.append later) step) ih

theorem unique_of_path {first last : Pool (platform lib config)} (path : Path first events last)
    (unique : first.shared.db.Unique) : last.shared.db.Unique := by
  induction path with
  | nil => exact unique
  | snoc path step ih =>
    rcases database_of_step step with same | ⟨tx, rolled⟩ | ⟨i, c, statement, answer, _, executes⟩
    · rw [same]
      exact ih
    · rw [rolled]
      exact ih.rollback tx
    · exact ih.executed executes

theorem Left.unique (left : Left lib s) : Unique { store := s } := by
  obtain ⟨past, serves⟩ := left
  induction serves with
  | nothing => exact .empty
  | stopped earlier path ih => exact (unique_of_path path ih).reconnect

theorem unique_of_booted (left : Left lib s) (path : Path (booted lib config s) events pool) :
    pool.shared.db.Unique :=
  unique_of_path path left.unique

/-- Every process surrounds its threads like this. -/
theorem around_of_booted {Q : Store → Prop} {grants : Op → Choice → World → Prop} {i : ℕ}
    {more : List (Event (platform lib config))} (left : Left lib s) (path : Path (booted lib config s) events pool)
    (keep : OthersKeep i pool more fun w => Q w.db.store)
    (granted : ∀ before c what after middle next, more = before ++ .performed i c what :: after →
      Path pool before middle →
      Step middle (.performed i c what) next →
        grants what.op c middle.shared) : (among lib config Q grants).Around i pool more := by
  rintro before event after middle state rfl until_then step
  have earlier := path.append until_then
  refine ⟨valid_of_booted left earlier, ?_, fun task owned op rest present other =>
    ⟨evolves_of_booted left earlier step, ?_, ?_⟩⟩
  · rintro c what rfl
    exact granted before c what after middle state rfl until_then step
  · exact keep before event after middle state rfl until_then step other
  · intro tx names
    obtain ⟨claims, holds⟩ := holds_of_booted left earlier
    exact sameTransaction_of_holds holds present names step other

/-- Only tasks are started by other threads. -/
theorem executeRun_of_spawned {c : Choice} {op : Op} {owned : List SemaphoreRef} {w : World}
    {effect : Effect signature (List SemaphoreRef) World Task op} {started : Task × List SemaphoreRef}
    (ran : op.exec config Task.executeRun c owned w = some effect) (spawned : effect.spawned = some started) :
    ∃ tenantId runId, started.1 = .executeRun tenantId runId := by
  cases op with
  | spawn tenantId runId =>
    cases ran
    cases spawned
    exact ⟨tenantId, runId, rfl⟩
  | sql statement =>
    obtain ⟨_, _, rfl⟩ := Option.map_eq_some_iff.mp ran
    cases spawned
  | _ =>
    simp only [Op.exec] at ran
    first
      | (cases ran; cases spawned)
      | (split at ran <;> cases ran <;> cases spawned)

/-- The arrival of a request. -/
theorem arrival_of_booted {i : ℕ} {thread : Thread (platform lib config)} {request : Request}
    (path : Path (booted lib config s) events pool) (present : pool.threads[i]? = some thread)
    (http : thread.task = .http request) :
    ∃ before after middle, events = before ++ .arrived (.http request) :: after ∧
      Path (booted lib config s) before middle ∧
      Path middle (.arrived (.http request) :: after) pool ∧ middle.threads.length = i := by
  have arrival := path.arrival_of_thread rfl present fun c op owned w effect started ran spawned same => by
    obtain ⟨tenantId, runId, other⟩ := executeRun_of_spawned ran spawned
    rw [other, http] at same
    cases same
  rwa [http] at arrival

end AgentPlatform
