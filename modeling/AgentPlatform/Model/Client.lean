import AgentPlatform.Model.Lifetime

/-! # `demo/src/main.rs` and `demo/src/client.rs`

How the command line client waits for a run. The client sends one request after the other; the server may
be stopped and started again between them, and a request may get no response at all.
-/

set_option autoImplicit false

namespace AgentPlatform

open Interleaving

/-- Why a command of the client fails. -/
inductive ClientError
  | unreachable
  | status (code : ℕ) (error : String)
  | invalidResponse
  | timedOut (runId : Uuid)
deriving DecidableEq

/-- `ApiClient::get` at type `RunResponse`, on the response of the server. -/
def ApiClient.getRun : Except AppError Response → Except ClientError RunResponse
  | .ok (.run response) => .ok response
  | .ok _ => .error .invalidResponse
  | .error fault => .error (.status fault.statusCode fault.errorCode)

/-- `wait_for_run`, on the answers to its requests, each with the time when it is compared with the deadline. As long
as it goes on waiting it has no result. -/
def waitForRun (runId : Uuid) (deadline : ℕ) : List (Except ClientError RunResponse × ℕ) →
    Option (Except ClientError RunResponse)
  | [] => none
  | (.error error, _) :: _ => some (.error error)
  | (.ok run, now) :: rest =>
      if run.status ≠ .pending ∧ run.status ≠ .running then some (.ok run)
      else if deadline ≤ now then some (.error (.timedOut runId))
      else waitForRun runId deadline rest

variable (lib : Libraries)

/-- Between these states a request for the run arrives and is answered. -/
structure Asked {config : Config} (headers : HeaderMap) (runId : Uuid) (first last : Pool (platform lib config))
    (result : Except AppError Response) : Prop where
  path : ∃ events, Path first (.arrived (.http (.getRun headers runId)) :: events) last
  returned : last.Returned first.threads.length (.http (.getRun headers runId)) result

/-- Between these states clients asked for the run, one request after the other, and got these answers. -/
inductive Polls (runId : Uuid) : {config config' : Config} → Pool (platform lib config) →
    List (Except ClientError RunResponse) → Pool (platform lib config') → Prop
  | nothing {config config' : Config} {first : Pool (platform lib config)} {last : Pool (platform lib config')}
      (onward : Onward lib first last) : Polls runId first [] last
  | answered {config config' config'' : Config} {first : Pool (platform lib config)}
      {before after : Pool (platform lib config')}
      {last : Pool (platform lib config'')} {answers : List (Except ClientError RunResponse)} {headers : HeaderMap}
      {result : Except AppError Response} (earlier : Polls runId first answers before)
      (asked : Asked lib headers runId before after result) (onward : Onward lib after last) :
      Polls runId first (answers ++ [ApiClient.getRun result]) last
  | lost {config config' config'' : Config} {first : Pool (platform lib config)}
      {before : Pool (platform lib config')}
      {last : Pool (platform lib config'')} {answers : List (Except ClientError RunResponse)}
      (earlier : Polls runId first answers before) (onward : Onward lib before last) :
      Polls runId first (answers ++ [.error .unreachable]) last

end AgentPlatform
