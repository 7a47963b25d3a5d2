import AgentPlatform.Model.Http

/-! # `main.rs` and `AppState::new`

A process serves requests from its start until it stops, wherever its handlers and tasks are then.
What it leaves are the committed rows: its transactions end with their connections, and its
semaphores and its tasks are gone. The next process, which may have another configuration, starts
with these rows, full semaphores and nothing in progress.
-/

set_option autoImplicit false

namespace AgentPlatform

open Interleaving

variable (lib : Libraries)

/-- The server right after its start on a database with these rows. -/
def booted (config : Config) (s : Store) : Pool (platform lib config) := ⟨⟨{ store := s }, .new config⟩, []⟩

/-- What all threads of a process did. -/
def performed {M : Machine} (events : List (Event M)) : List (Performed M.sig) :=
  events.filterMap fun
    | .arrived _ => none
    | .performed _ _ what => some what

/-- One process: the rows that it found, all that happened in it, arrivals included, and where it stopped. -/
structure Process where
  config : Config
  found : Store
  events : List (Event (platform lib config))
  stopped : Pool (platform lib config)
  path : Path (booted lib config found) events stopped

/-- What all threads of these processes did. -/
def operations {lib : Libraries} (past : List (Process lib)) : List (Performed signature) :=
  past.flatMap fun process => performed process.events

/-- From the rows `s` on, these processes served one after the other, and they left the rows `t`. -/
inductive Serves (s : Store) : List (Process lib) → Store → Prop
  | nothing : Serves s [] s
  | stopped {config : Config} {past : List (Process lib)} {t : Store} {events : List (Event (platform lib config))}
      {pool : Pool (platform lib config)} (earlier : Serves s past t)
      (path : Path (booted lib config t) events pool) :
      Serves s (past ++ [⟨config, t, events, pool, path⟩]) pool.shared.db.store

/-- Rows that the processes of the server have left, beginning with an empty database. -/
def Left (s : Store) : Prop := ∃ past, Serves lib {} past s

/-- From the first state on the server made steps, and was started again on its rows any number of times, up to the
last one. -/
inductive Onward : {config config' : Config} → Pool (platform lib config) → Pool (platform lib config') → Prop
  | here {config : Config} (pool : Pool (platform lib config)) : Onward pool pool
  | step {config config' : Config} {first : Pool (platform lib config)} {pool next : Pool (platform lib config')}
      {event : Event (platform lib config')} (onward : Onward first pool)
      (step : Step pool event next) : Onward first next
  | restart {config config' : Config} {first : Pool (platform lib config)} {pool : Pool (platform lib config')}
      (next : Config) (onward : Onward first pool) : Onward first (booted lib next pool.shared.db.store)

theorem started_eq_booted {config : Config} : started lib config = booted lib config {} := rfl

end AgentPlatform
