import AgentPlatform.Interleaving.Pool
import AgentPlatform.Model.Store

/-! # The operations of the server

Besides its SQL statements the server takes and returns semaphore permits, looks up the semaphore
of a tenant, spawns the task of a run, drops transactions and draws random characters. `World` is
everything these operations share; the permits that a handler or task holds are its own. The
per-tenant semaphores live in a map whose entries are inserted once and never replaced, so a
semaphore is named by its slot.
-/

set_option autoImplicit false

namespace AgentPlatform

open Interleaving

structure Config where
  globalMaxConcurrency : ℕ
  perTenantMaxConcurrency : ℕ

inductive SemaphoreRef
  | global
  | tenant (tenantId : Uuid)
deriving DecidableEq, Repr

/-- The permits that are available. -/
structure Scheduler where
  globalSemaphore : ℕ
  tenantSemaphores : List (Uuid × ℕ)

namespace Scheduler

def new (config : Config) : Scheduler := ⟨config.globalMaxConcurrency, []⟩

def available (scheduler : Scheduler) : SemaphoreRef → ℕ
  | .global => scheduler.globalSemaphore
  | .tenant tenantId => (scheduler.tenantSemaphores.lookup tenantId).getD 0

def update (scheduler : Scheduler) (semaphore : SemaphoreRef) (change : ℕ → ℕ) : Scheduler :=
  match semaphore with
  | .global => { scheduler with globalSemaphore := change scheduler.globalSemaphore }
  | .tenant tenantId => { scheduler with tenantSemaphores := scheduler.tenantSemaphores.map fun entry =>
      if entry.1 = tenantId then (tenantId, change entry.2) else entry }

/-- `entry(tenant_id).or_insert_with(..)` under the lock of the map. -/
def entryOrInsert (config : Config) (scheduler : Scheduler) (tenantId : Uuid) : Scheduler :=
  if (scheduler.tenantSemaphores.lookup tenantId).isSome then scheduler
  else { scheduler with
    tenantSemaphores := scheduler.tenantSemaphores ++ [(tenantId, config.perTenantMaxConcurrency)] }

end Scheduler

structure World where
  db : Database
  scheduler : Scheduler

def World.new (config : Config) : World := ⟨{}, .new config⟩

inductive Op
  | sql (statement : Statement)
  | rollback (tx : Uuid)
  | tryAcquireOwned (semaphore : SemaphoreRef)
  | getTenantSemaphore (tenantId : Uuid)
  | dropPermit (semaphore : SemaphoreRef)
  | spawn (tenantId runId : Uuid)
  | sampleAlphanumeric (count : ℕ)
  | generateSalt

@[reducible] def Op.Answer : Op → Type
  | .sql statement => Except SqlxError statement.Row
  | .rollback _ => Unit
  | .tryAcquireOwned _ => Bool
  | .getTenantSemaphore _ => SemaphoreRef
  | .dropPermit _ => Unit
  | .spawn .. => Unit
  | .sampleAlphanumeric _ => String
  | .generateSalt => String

def signature : Signature := ⟨Op, Op.Answer⟩

/-- The code of a handler or task; `?` is sequencing. -/
abbrev Act := Program signature AppError

def act (op : Op) : Act op.Answer := @Program.perform signature _ op

/-- Await a statement and keep its error as a value. -/
def attempt (statement : Statement) : Act (Except SqlxError statement.Row) := act (.sql statement)

/-- Await a statement; `?` turns its error into `AppError::Db`. -/
def query (statement : Statement) : Act statement.Row := do
  match ← attempt statement with
  | .ok row => return row
  | .error error => throw (.db error)

/-- `Option::ok_or(error)?` -/
def okOr {α : Type} (value : Option α) (error : AppError) : Act α :=
  match value with
  | some value => return value
  | none => throw error

/-- `Result::map_err(..)?` for a computation that needs no statement. -/
def okOrError {α : Type} (value : Except AppError α) : Act α :=
  match value with
  | .ok value => return value
  | .error error => throw error

/-- An alphanumeric character of the `rand` distribution. -/
def isAlphanumeric (c : Char) : Bool :=
  ('0' ≤ c && c ≤ '9') || ('a' ≤ c && c ≤ 'z') || ('A' ≤ c && c ≤ 'Z')

section Effects

variable {Task : Type}

/-- A step that only answers. -/
def answering {op : Op} (answer : op.Answer) (permits : List SemaphoreRef) (w : World) :
    Effect signature (List SemaphoreRef) World Task op := ⟨answer, permits, w, none⟩

/-- The effect of one operation of a thread that holds `permits`. Spawning moves the permits of
`schedule_run` into the new task. -/
def Op.exec (config : Config) (run : Uuid → Uuid → Task) (c : Choice) (op : Op)
    (permits : List SemaphoreRef) (w : World) :
    Option (Effect signature (List SemaphoreRef) World Task op) :=
  match op with
  | .sql statement =>
      (w.db.execute c statement).map fun (answer, db) => ⟨answer, permits, { w with db }, none⟩
  | .rollback tx => some ⟨(), permits, { w with db := w.db.rollback tx }, none⟩
  | .tryAcquireOwned semaphore =>
      if 0 < w.scheduler.available semaphore then
        some ⟨true, permits ++ [semaphore],
          { w with scheduler := w.scheduler.update semaphore (· - 1) }, none⟩
      else some (answering false permits w)
  | .getTenantSemaphore tenantId =>
      some ⟨.tenant tenantId, permits,
        { w with scheduler := w.scheduler.entryOrInsert config tenantId }, none⟩
  | .dropPermit semaphore =>
      if semaphore ∈ permits then
        some ⟨(), permits.erase semaphore,
          { w with scheduler := w.scheduler.update semaphore (· + 1) }, none⟩
      else some (answering () permits w)
  | .spawn tenantId runId => some ⟨(), [], w, some (run tenantId runId, permits)⟩
  | .sampleAlphanumeric count =>
      if c.chars.length = count ∧ c.chars.all isAlphanumeric then
        some (answering (String.ofList c.chars) permits w)
      else none
  | .generateSalt => some (answering (String.ofList c.chars) permits w)

end Effects

end AgentPlatform
